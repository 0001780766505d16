/-!
# Places in a document

The characters of a document with their lines and columns, counted from zero.  Every form of line end
becomes a line feed, except the line and paragraph separators: they end a line as well, and stay.  What
stands before a place never matters, so a place is the list of the characters from there on.
-/

namespace TemplateExpr

namespace Yaml

/-! ### Characters -/

def isDocumentChar (c : Char) : Bool :=
  let n := c.toNat
  n == 0x09 || n == 0x0a || n == 0x0d || (0x20 ≤ n && n ≤ 0x7e) || n == 0x85
    || (0xa0 ≤ n && n ≤ 0xfffd) || 0x10000 ≤ n

def isGap (c : Char) : Bool := c == ' ' || c == '\t'

def isBreak (c : Char) : Bool := c == '\n' || c == '\u2028' || c == '\u2029'

def isGapOrBreak (c : Char) : Bool := isGap c || isBreak c

def isFlowIndicator (c : Char) : Bool := c == ',' || c == '[' || c == ']' || c == '{' || c == '}'

def isNameChar (c : Char) : Bool := c.isAlphanum || c == '_' || c == '-'

/-! ### Places -/

structure Spot where
  char : Char
  line : Nat
  column : Nat
  deriving DecidableEq

def textOf (spots : List Spot) : List Char := spots.map Spot.char

/-- A text that begins in a line and column. -/
def locate (line column : Nat) : List Char → List Spot
  | [] => []
  | c :: rest =>
    ⟨c, line, column⟩ :: if isBreak c then locate (line + 1) 0 rest else locate line (column + 1) rest

theorem textOf_locate (line column : Nat) (cs : List Char) : textOf (locate line column cs) = cs := by
  induction cs generalizing line column with
  | nil => rfl
  | cons c rest ih =>
    by_cases h : isBreak c
    · simp only [locate, h, if_true, textOf, List.map_cons]
      exact congrArg (c :: ·) (ih (line + 1) 0)
    · simp only [locate, h, textOf, List.map_cons]
      exact congrArg (c :: ·) (ih line (column + 1))

/-- Line ends of the other forms as line feeds. -/
def unifyBreaks : List Char → List Char
  | [] => []
  | '\r' :: '\n' :: rest => '\n' :: unifyBreaks rest
  | '\r' :: rest => '\n' :: unifyBreaks rest
  | '\x85' :: rest => '\n' :: unifyBreaks rest
  | c :: rest => c :: unifyBreaks rest

/-- A text as places, from behind a byte order mark; `none` if it holds a character that no document
may hold. -/
def spots? (s : String) : Option (List Spot) :=
  if s.toList.all isDocumentChar then
    match locate 0 0 (unifyBreaks s.toList) with
    | spot :: rest => if spot.char = '\ufeff' then some rest else some (spot :: rest)
    | [] => some []
  else none

/-! ### What begins at a place -/

def startsBlank : List Spot → Bool
  | [] => true
  | spot :: _ => isGapOrBreak spot.char

/-- Whether a line begins with a marker of three equal characters. -/
def startsMarker (mark : Char) : List Spot → Bool
  | a :: b :: c :: rest =>
    a.column == 0 && a.char == mark && b.char == mark && c.char == mark && startsBlank rest
  | _ => false

/-- Whether a marker of either kind begins at a place: three dashes begin a document, three dots end
one. -/
def atMarker (spots : List Spot) : Bool := startsMarker '-' spots || startsMarker '.' spots

end Yaml

end TemplateExpr
