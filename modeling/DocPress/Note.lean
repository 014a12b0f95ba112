import DocPress.Heading
import DocPress.Text.Quoted
import DocPress.Tree

namespace DocPress

inductive Severity where
  | warn
  | info
  | debug
  | trace
deriving DecidableEq, Repr

namespace Severity

def rank : Severity → Nat
  | warn => 0
  | info => 1
  | debug => 2
  | trace => 3

def name : Severity → Text
  | warn => "WARN".toList
  | info => "INFO".toList
  | debug => "DEBUG".toList
  | trace => "TRACE".toList

def all : List Severity :=
  [warn, info, debug, trace]

end Severity

inductive Note where
  | flattening (file : Path) (level : Nat)
  | headingMarkers (file : Path) (markers : List Heading.Marker) (level : Nat)
  | contentsInserted (file : Path)
  | includeEntry (file : Path) (target : Text)
  | toctreeEntry (file : Path) (entry : Text)
  | catalogLoaded (size : Nat) (file : Path)
  | phraseRepeated (source : Text)
  | linesLocalized (localized total : Nat)
  | placeholderReplaced (token : Text) (lines : Nat)
  | headingInlined (title : Text)
  | labelDisplaced (first second : Text)
  | tableOptionIgnored (key : Text)
  | tableLineDropped (line : Text)
  | documentParsed (elements : Nat)
  | rendering (kind : Text)
  | tableWithoutRows (title : Option Text)
  | widthsUnreadable (raw : Text)
  | footnotesNumbered (first last : Nat)
  | settingsLoaded (file : Path)
  | outputWritten (file : Path)
deriving DecidableEq, Repr

namespace Note
open Text

def severity : Note → Severity
  | labelDisplaced .. | tableLineDropped .. | tableWithoutRows .. | widthsUnreadable .. => .warn
  | flattening .. | documentParsed .. | outputWritten .. => .info
  | rendering .. => .trace
  | _ => .debug

def message : Note → Text
  | flattening file level => "Flattening ".toList ++ file ++ " at level ".toList ++ ofNat level
  | headingMarkers file markers level =>
    file ++ ": heading markers [".toList ++ joinWith ", ".toList (markers.map fun m => ['\'', m.toChar, '\'']) ++
      "] mapped from level ".toList ++ ofNat level
  | contentsInserted file => file ++ ": inserting table of contents".toList
  | includeEntry file target => file ++ ": include ".toList ++ target
  | toctreeEntry file entry => file ++ ": toctree entry ".toList ++ entry
  | catalogLoaded size file => "Loaded ".toList ++ ofNat size ++ " translations from ".toList ++ file
  | phraseRepeated source =>
    "Duplicate catalog entry for ".toList ++ Quoted.encode source ++ ", keeping the last one".toList
  | linesLocalized localized total =>
    "Translated ".toList ++ ofNat localized ++ " of ".toList ++ ofNat total ++ " logical lines".toList
  | placeholderReplaced token lines => "Replaced ".toList ++ token ++ " on ".toList ++ ofNat lines ++ " lines".toList
  | headingInlined title => "Inlining heading '".toList ++ title ++ "' as unnumbered section".toList
  | labelDisplaced first second =>
    "Label '".toList ++ first ++ "' is followed by label '".toList ++ second ++
      "' without content; emitting it standalone".toList
  | tableOptionIgnored key => "Ignoring csv-table option '".toList ++ key ++ ['\'']
  | tableLineDropped line => "Dropping unrecognized line in csv-table: ".toList ++ line
  | documentParsed elements => "Parsed ".toList ++ ofNat elements ++ " elements".toList
  | rendering kind => "Rendering ".toList ++ kind
  | tableWithoutRows title => "Table ".toList ++ title.getD "(untitled)".toList ++ " has no rows".toList
  | widthsUnreadable raw => "Invalid csv-table widths '".toList ++ raw ++ "', using equal columns".toList
  | footnotesNumbered first last => "Table footnotes numbered ".toList ++ ofNat first ++ "..=".toList ++ ofNat last
  | settingsLoaded file => "Loaded configuration from ".toList ++ file
  | outputWritten file => "Wrote ".toList ++ file

end Note
end DocPress
