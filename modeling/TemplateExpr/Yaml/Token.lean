import TemplateExpr.Yaml.Scalar

/-!
# YAML tokens

The marks and words of a document, and those of them that are read without regard to columns: names of
anchors and aliases, tags and directives.
-/

namespace TemplateExpr

namespace Yaml

inductive Token where
  /-- A directive for the version of the language. -/
  | version (major minor : Nat)
  /-- A directive for the tags that begin with `handle`. -/
  | shorthand (handle lead : String)
  | documentStart
  | documentEnd
  | blockSequenceStart
  | blockMappingStart
  /-- The end of a block collection, where a line stands further to the left. -/
  | blockEnd
  | flowSequenceStart
  | flowSequenceEnd
  | flowMappingStart
  | flowMappingEnd
  | blockEntry
  | flowEntry
  /-- The beginning of a key, with or without a question mark. -/
  | key
  | value
  /-- An alias, by the name of its anchor. -/
  | reference (name : String)
  | anchor (name : String)
  /-- A tag in two parts; one without a handle is complete. -/
  | tag (handle suffix : String)
  | scalar (style : Style) (text : String)
  deriving DecidableEq

/-! ### Names -/

/-- Whether the character at a place satisfies a test, or the text ends there. -/
def endsAt (ends : Char → Bool) : List Spot → Bool
  | [] => true
  | spot :: _ => ends spot.char

/-- The characters from a place on that satisfy a test, and the place behind them. -/
def word (accept : Char → Bool) (spots : List Spot) : List Char × List Spot :=
  (textOf (spots.takeWhile fun spot => accept spot.char), spots.dropWhile fun spot => accept spot.char)

def anchorName? (spots : List Spot) : Option (String × List Spot) :=
  let (name, after) := word isNameChar spots
  let ends := fun c => isGapOrBreak c || c ∈ ['?', ':', ',', ']', '}', '%', '@', '\x60']
  if name.isEmpty || !endsAt ends after then none else some (String.ofList name, after)

/-! ### Tags -/

/-- The characters of tags; some stand only between angle brackets or in a directive. -/
def isTagChar (verbatim : Bool) (c : Char) : Bool :=
  isNameChar c
    || c ∈ [';', '/', '?', ':', '@', '&', '=', '+', '$', '.', '!', '~', '*', '\'', '(', ')']
    || (verbatim && c ∈ [',', '[', ']'])

/-- How many bytes follow a first byte in the encoding of a character. -/
def followers? (byte : Nat) : Option Nat :=
  if byte < 0x80 then some 0
  else if 0xc0 ≤ byte ∧ byte < 0xe0 then some 1
  else if 0xe0 ≤ byte ∧ byte < 0xf0 then some 2
  else if 0xf0 ≤ byte ∧ byte < 0xf8 then some 3
  else none

/-- The text of a tag; escaped bytes stand for themselves, and `due` more of them must follow. -/
def tagText? (verbatim : Bool) (due : Nat) : List Spot → Option (List Char × List Spot)
  | [] => if due = 0 then some ([], []) else none
  | spot :: rest =>
    if spot.char = '%' then
      match rest with
      | a :: b :: after =>
        (readHex? 2 [a.char, b.char]).bind fun byte =>
          let add := fun (due : Nat) =>
            (tagText? verbatim due after).map fun (text, after) => (Char.ofNat byte :: text, after)
          match due with
          | 0 => (followers? byte).bind add
          | due + 1 => if 0x80 ≤ byte ∧ byte < 0xc0 then add due else none
      | _ => none
    else if due ≠ 0 then none
    else if isTagChar verbatim spot.char then
      (tagText? verbatim 0 rest).map fun (text, after) => (spot.char :: text, after)
    else some ([], spot :: rest)

/-- The text of a tag that may not be empty. -/
def tagWord? (verbatim : Bool) (spots : List Spot) : Option (List Char × List Spot) :=
  (tagText? verbatim 0 spots).filter fun (text, _) => !text.isEmpty

/-- A handle: an exclamation mark, a name and, perhaps, a second mark. -/
def handle (spots : List Spot) : List Char × List Spot :=
  let (name, after) := word isNameChar (spots.drop 1)
  match after with
  | spot :: rest => if spot.char = '!' then ('!' :: name ++ ['!'], rest) else ('!' :: name, after)
  | [] => ('!' :: name, [])

/-- A tag from its exclamation mark on: complete between angle brackets, or behind a handle.  A mark
alone is a complete tag. -/
def tagToken? (spots : List Spot) : Option (Token × List Spot) :=
  match (spots.drop 1).head?.map Spot.char with
  | some '<' => do
    let (text, after) ← tagWord? true (spots.drop 2)
    match after with
    | spot :: rest => if spot.char = '>' then pure (.tag "" (String.ofList text), rest) else none
    | [] => none
  | _ => do
    let (name, after) := handle spots
    if 1 < name.length && name.getLast? == some '!' then
      let (text, after) ← tagWord? false after
      pure (.tag (String.ofList name) (String.ofList text), after)
    else
      let (text, after) ← tagText? false 0 after
      match name.drop 1 ++ text with
      | [] => pure (.tag "" "!", after)
      | suffix => pure (.tag "!" (String.ofList suffix), after)

/-- A tag that ends at a blank or, in a flow collection, at a comma. -/
def tag? (flow : Bool) (spots : List Spot) : Option (Token × List Spot) :=
  (tagToken? spots).filter fun (_, after) =>
    endsAt (fun c => isGapOrBreak c || (flow && c == ',')) after

/-! ### Directives -/

/-- A number of at most nine digits. -/
def versionNumber? (spots : List Spot) : Option (Nat × List Spot) :=
  let (digits, after) := word Char.isDigit spots
  if digits.isEmpty || 9 < digits.length then none
  else some (digits.foldl (fun n d => 10 * n + (d.toNat - '0'.toNat)) 0, after)

/-- The rest of the line of a directive: blanks and a comment. -/
def directiveEnd? (spots : List Spot) : Option (List Spot) :=
  let after := spots.dropWhile fun spot => isGap spot.char
  let behind := if after.head?.any (·.char == '#') then
    after.dropWhile fun spot => !isBreak spot.char else after
  if endsAt isBreak behind then some (behind.drop 1) else none

/-- A directive from behind its percent sign: a version, or the tags that a handle begins. -/
def directive? (spots : List Spot) : Option (Token × List Spot) := do
  let (name, after) := word isNameChar spots
  guard (startsBlank after)
  let after := after.dropWhile fun spot => isGap spot.char
  match String.ofList name with
  | "YAML" =>
    let (major, after) ← versionNumber? after
    guard (after.head?.map Spot.char = some '.')
    let (minor, after) ← versionNumber? (after.drop 1)
    pure (.version major minor, ← directiveEnd? after)
  | "TAG" =>
    guard (after.head?.map Spot.char = some '!')
    let (name, after) := handle after
    guard (name.getLast? = some '!')
    guard (after.head?.any fun spot => isGap spot.char)
    let (lead, after) ← tagWord? true (after.dropWhile fun spot => isGap spot.char)
    guard (startsBlank after)
    pure (.shorthand (String.ofList name) (String.ofList lead), ← directiveEnd? after)
  | _ => none

end Yaml

end TemplateExpr
