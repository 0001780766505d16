import TemplateExpr.Token.StringLiteral
import TemplateExpr.Yaml.Spot

/-!
# YAML scalars

Plain, quoted and block scalars as they stand in the text.  Blanks and line ends within a plain or quoted
scalar are folded: a single line end is a space, and of several all but the first remain.  Each function
returns the text of the scalar and the place behind it.
-/

namespace TemplateExpr

namespace Yaml

inductive Style where
  | plain
  | quoted
  | literal
  | folded
  deriving DecidableEq

/-! ### Folding -/

/-- What a run of blanks and line ends is folded to.  A separator that ends the first line stays, and so
does every line end behind an escaped one. -/
def foldRun (escaped : Bool) (run : List Char) : List Char :=
  match run.filter isBreak with
  | [] => if escaped then [] else run
  | '\n' :: breaks => if escaped then '\n' :: breaks else if breaks.isEmpty then [' '] else breaks
  | breaks => breaks

theorem foldRun_nil (escaped : Bool) : foldRun escaped [] = [] := by cases escaped <;> rfl

/-- A scalar that begins with a run of blanks, in reverse, and a character. -/
def continueWith (escaped : Bool) (run : List Char) (c : Char) (tail : List Char × List Spot) :
    List Char × List Spot :=
  (foldRun escaped run.reverse ++ c :: tail.1, tail.2)

/-! ### Plain scalars -/

/-- The characters that begin something else than a plain scalar. -/
def isMarkup (c : Char) : Bool :=
  c == '#' || c == '&' || c == '*' || c == '!' || c == '|' || c == '>' || c == '\'' || c == '"'
    || c == '%' || c == '@' || c == '\x60'

/-- Whether a plain scalar may begin with `c` before a place. -/
def startsPlain (flow : Bool) (c : Char) (rest : List Spot) : Bool :=
  if c == '-' then !startsBlank rest
  else if c == '?' || c == ':' then !flow && !startsBlank rest
  else !isGapOrBreak c && !isFlowIndicator c && !isMarkup c

/-- Whether a plain scalar ends at `c` before a place: at a colon that ends a key, and in a flow
collection at an indicator. -/
def endsPlain (flow : Bool) (c : Char) (rest : List Spot) : Bool :=
  (c == ':' && startsBlank rest) || (flow && isFlowIndicator c)

/-- Whether a colon before a place stands where none may: right before an indicator in a flow
collection. -/
def isStrayColon (flow : Bool) (c : Char) (rest : List Spot) : Bool :=
  flow && c == ':' && rest.head?.any fun spot => spot.char == '?' || isFlowIndicator spot.char

/-- A plain scalar, where `run` is the run of blanks before the place, in reverse.  A line in a block
continues it if it is indented to the column `least`, and no line is indented to there by tabs.  It comes
with the run of blanks behind it. -/
def plainFrom (flow : Bool) (least : Nat) (run : List Char) :
    List Spot → Option (List Char × List Char × List Spot)
  | [] => some ([], run, [])
  | spot :: rest =>
    let c := spot.char
    if isBreak c then plainFrom flow least (c :: run) rest
    else if isGap c then
      if c == '\t' && run.any isBreak && spot.column < least then none
      else plainFrom flow least (c :: run) rest
    else if (!run.isEmpty && ((!flow && spot.column < least) || c == '#')) || atMarker (spot :: rest) then
      some ([], run, spot :: rest)
    else if isStrayColon flow c rest then none
    else if endsPlain flow c rest then some ([], run, spot :: rest)
    else
      (plainFrom flow least [] rest).map fun (text, after) =>
        (foldRun false run.reverse ++ c :: text, after)

/-! ### Quoted scalars -/

/-- A scalar in single quotes, where a quote is written twice. -/
def singleQuoted (run : List Char) : List Spot → Option (List Char × List Spot)
  | [] => none
  | spot :: rest =>
    if isGapOrBreak spot.char then singleQuoted (spot.char :: run) rest
    else if atMarker (spot :: rest) then none
    else if spot.char = '\'' then
      match rest with
      | next :: after =>
        if next.char = '\'' then (singleQuoted [] after).map (continueWith false run '\'')
        else some (foldRun false run.reverse, next :: after)
      | [] => some (foldRun false run.reverse, [])
    else (singleQuoted [] rest).map (continueWith false run spot.char)

def shortEscape? (c : Char) : Option Char :=
  match c with
  | '0' => some '\x00'
  | 'a' => some '\x07'
  | 'b' => some '\x08'
  | 't' => some '\t'
  | '\t' => some '\t'
  | 'n' => some '\n'
  | 'v' => some '\x0b'
  | 'f' => some '\x0c'
  | 'r' => some '\r'
  | 'e' => some '\x1b'
  | ' ' => some ' '
  | '"' => some '"'
  | '/' => some '/'
  | '\\' => some '\\'
  | 'N' => some '\x85'
  | '_' => some '\xa0'
  | 'L' => some '\u2028'
  | 'P' => some '\u2029'
  | _ => none

def escapeDigits (c : Char) : Nat :=
  match c with
  | 'x' => 2
  | 'u' => 4
  | 'U' => 8
  | _ => 0

def escape? (c : Char) (digits : List Char) : Option Char :=
  if escapeDigits c = 0 then shortEscape? c
  else
    (readHex? (escapeDigits c) digits).bind fun n =>
      if n.isValidChar then some (Char.ofNat n) else none

/-- A scalar in double quotes; `escaped` tells whether the run of blanks before the place begins behind
an escaped line end. -/
def doubleQuoted (escaped : Bool) (run : List Char) : List Spot → Option (List Char × List Spot)
  | [] => none
  | spot :: rest =>
    if isGapOrBreak spot.char then doubleQuoted escaped (spot.char :: run) rest
    else if atMarker (spot :: rest) then none
    else if spot.char = '"' then some (foldRun escaped run.reverse, rest)
    else if spot.char = '\\' then
      match rest with
      | [] => none
      | letter :: after =>
        if isBreak letter.char then
          (doubleQuoted true [] after).map fun (text, after) =>
            (foldRun escaped run.reverse ++ text, after)
        else
          let count := escapeDigits letter.char
          match escape? letter.char (textOf (after.take count)) with
          | some c => (doubleQuoted false [] (after.drop count)).map (continueWith escaped run c)
          | none => none
    else (doubleQuoted false [] rest).map (continueWith escaped run spot.char)
termination_by spots => spots.length
decreasing_by all_goals (simp only [List.length_cons, List.length_drop]; omega)

/-! ### Block scalars -/

/-- What becomes of the line ends at the end of a block scalar. -/
inductive Chomping where
  | clip
  | strip
  | keep

/-- The line ends that stay: `ending` is the end of the last line, and `breaks` are the empty lines
behind it. -/
def Chomping.apply (ending breaks : List Char) : Chomping → List Char
  | strip => []
  | clip => ending
  | keep => ending ++ breaks

/-- The rest of the first line of a block scalar: its chomping and, if it is given, its indentation. -/
def blockHeader? (line : List Char) : Option (Chomping × Option Nat) :=
  let isMark := fun c => !isGap c && c != '#'
  let behind := (line.dropWhile isMark).dropWhile isGap
  if !behind.isEmpty && behind.head? != some '#' then none
  else
    match line.takeWhile isMark with
    | [] => some (.clip, none)
    | ['-'] => some (.strip, none)
    | ['+'] => some (.keep, none)
    | [d] => (indentOf? d).map fun n => (.clip, some n)
    | ['-', d] => (indentOf? d).map fun n => (.strip, some n)
    | ['+', d] => (indentOf? d).map fun n => (.keep, some n)
    | [d, '-'] => (indentOf? d).map fun n => (.strip, some n)
    | [d, '+'] => (indentOf? d).map fun n => (.keep, some n)
    | _ => none
where
  indentOf? (d : Char) : Option Nat :=
    if d.isDigit && d != '0' then some (d.toNat - '0'.toNat) else none

/-- The widest indentation up to the first line with content, which may not be indented by a tab. -/
def leadingWidth? (widest : Nat) : List Spot → Option Nat
  | [] => some widest
  | spot :: rest =>
    if spot.char = ' ' then leadingWidth? (max widest (spot.column + 1)) rest
    else if spot.char = '\t' then none
    else if isBreak spot.char then leadingWidth? widest rest
    else some widest

/-- What joins two lines of a block scalar with empty lines between them; in a folded one a line feed
is dropped where both lines begin with no blank, or becomes a space if there is no empty line. -/
def joinLines (folded afterBlank beforeBlank : Bool) (ending breaks : List Char) : List Char :=
  if folded && ending == ['\n'] && !afterBlank && !beforeBlank then
    if breaks.isEmpty then [' '] else breaks
  else ending ++ breaks

mutual

/-- The rest of a block scalar from within a line; `blank` tells whether the line begins with one. -/
def blockLine (folded : Bool) (indent : Nat) (chomping : Chomping) (blank : Bool) :
    List Spot → Option (List Char × List Spot)
  | [] => some ([], [])
  | spot :: rest =>
    if isBreak spot.char then blockLines folded indent chomping blank [spot.char] [] rest
    else
      (blockLine folded indent chomping blank rest).map fun (text, after) => (spot.char :: text, after)

/-- The rest of a block scalar from between two lines: `ending` is the end of the last line, `breaks`
are those of the empty lines behind it, and `afterBlank` tells whether it begins with a blank. -/
def blockLines (folded : Bool) (indent : Nat) (chomping : Chomping) (afterBlank : Bool)
    (ending breaks : List Char) : List Spot → Option (List Char × List Spot)
  | [] => some (chomping.apply ending breaks, [])
  | spot :: rest =>
    if spot.column < indent && spot.char == ' ' then
      blockLines folded indent chomping afterBlank ending breaks rest
    else if spot.column < indent && spot.char == '\t' then none
    else if isBreak spot.char then
      blockLines folded indent chomping afterBlank ending (breaks ++ [spot.char]) rest
    else if spot.column = indent then
      let blank := isGap spot.char
      (blockLine folded indent chomping blank rest).map fun (text, after) =>
        (joinLines folded afterBlank blank ending breaks ++ spot.char :: text, after)
    else some (chomping.apply ending breaks, spot :: rest)

end

/-- A block scalar from behind its indicator; `least` is the least column of its lines.  An indentation
that is not given is the widest of the first lines. -/
def blockScalar (folded : Bool) (least : Nat) (spots : List Spot) : Option (List Char × List Spot) := do
  let inLine := fun spot : Spot => !isBreak spot.char
  let (chomping, given) ← blockHeader? (textOf (spots.takeWhile inLine))
  let body := (spots.dropWhile inLine).drop 1
  let indent ← match given with
    | some n => some (least - 1 + n)
    | none => (leadingWidth? 0 body).map fun widest => max (max widest least) 1
  blockLines folded indent chomping false [] [] body

end Yaml

end TemplateExpr
