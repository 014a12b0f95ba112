import DocPress.Heading
import DocPress.Markup

namespace DocPress.Placeholder
open Text Heading

def token (name : Text) : Text :=
  '|' :: name ++ ['|']

def resizeBelow (token : Text) (lines : List Text) (index : Nat) (result : List Text) : List Text :=
  match lines with
  | line :: underline :: rest =>
    let result := if occurs token line && isUnderline underline then resizeAt result (index + 1) else result
    resizeBelow token (underline :: rest) (index + 1) result
  | _ => result

def replace (lines : List Text) (name value : Text) : List Text :=
  resizeBelow (token name) lines 0 (lines.map (replaceAll (token name) value))

def count (lines : List Text) (name : Text) : Nat :=
  lines.countP (occurs (token name))

end DocPress.Placeholder

namespace DocPress.Contents
open Text Heading

def defaultTitles : List Text :=
  ["Table of contents".toList, "Inhaltsverzeichnis".toList, "Release Notes".toList]

def unnumbered (title : Text) : List Text :=
  Latex.island ["\\section*\x7b".toList ++ title ++ ['\x7d']]

/-- Whether a heading has an overline, given the lines before its title from the nearest up: the line above
equals the underline, and is the first of all or follows a blank line. -/
def hasOverline (before : List Text) (underline : Text) : Bool :=
  match before with
  | [] => false
  | [candidate] => trimEnd candidate == trimEnd underline
  | candidate :: separator :: _ => trimEnd candidate == trimEnd underline && isBlank separator

def isListed (titles : List Text) (line underline : Text) : Bool :=
  titles.contains (trim line) && isUnderline underline

/-- Go on after the lines `before`, from the nearest up, which gave the lines `done`. -/
def inlineFrom (titles : List Text) (before done : List Text) : List Text → List Text
  | [] => done
  | [line] => done ++ [trimEnd line]
  | line :: next :: rest =>
    if isListed titles line next then
      let kept := if hasOverline before next then done.dropLast else done
      inlineFrom titles (next :: line :: before) (kept ++ unnumbered (trim line)) rest
    else inlineFrom titles (line :: before) (done ++ [trimEnd line]) (next :: rest)

def inlineListed (titles lines : List Text) : List Text :=
  inlineFrom titles [] [] lines

def found (titles : List Text) : List Text → List Text
  | [] => []
  | [_] => []
  | line :: next :: rest =>
    if isListed titles line next then trim line :: found titles rest else found titles (next :: rest)

end DocPress.Contents
