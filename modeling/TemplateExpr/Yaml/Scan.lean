import TemplateExpr.Yaml.Token

/-!
# YAML documents as tokens

Columns become tokens: a block collection begins where an entry stands further to the right than the
entries around it, and it ends where something stands further to the left.  That a scalar or flow
collection is a key shows only at the colon behind it, so the scanner keeps the place of a possible key
and marks it later.  A possible key lasts for one line and no more than 1024 characters.
-/

namespace TemplateExpr

namespace Yaml

/-- A place where a key may have begun: behind how many tokens it is, and whether nothing but a key
can stand there. -/
structure PossibleKey where
  line : Nat
  column : Nat
  before : Nat
  required : Bool
  deriving DecidableEq

structure Scanner where
  /-- The tokens so far, the last one first. -/
  done : List Token
  /-- The columns of the block collections, the innermost one first. -/
  blocks : List Nat
  key : Option PossibleKey
  /-- The possible keys around the flow collections, the innermost one first. -/
  outer : List (Option PossibleKey)
  /-- Whether a key or an item may begin here. -/
  keyAllowed : Bool

namespace Scanner

def start : Scanner := ⟨[], [], none, [], true⟩

def inFlow (s : Scanner) : Bool := !s.outer.isEmpty

/-- The least column of what is nested in the innermost block collection. -/
def least (s : Scanner) : Nat := (s.blocks.head?.map (· + 1)).getD 0

def emit (s : Scanner) (token : Token) : Scanner := { s with done := token :: s.done }

/-! ### Possible keys -/

/-- No key begins at the possible place; `none` if one had to. -/
def forgetKey (s : Scanner) : Option Scanner :=
  if s.key.any PossibleKey.required then none else some { s with key := none }

/-- Notes that a key may begin at a place, if one may. -/
def noteKey (s : Scanner) (spot : Spot) : Option Scanner :=
  if s.keyAllowed then do
    let s ← s.forgetKey
    let required := !s.inFlow && s.blocks.head? == some spot.column
    pure { s with key := some ⟨spot.line, spot.column, s.done.length, required⟩ }
  else some s

/-- Whether a possible key has come too far from its beginning. -/
def PossibleKey.isStale (spot : Spot) (key : PossibleKey) : Bool :=
  key.line != spot.line || key.column + 1024 < spot.column

/-- Forgets the possible keys that are stale at a place; `none` if one of them had to be a key. -/
def forgetStale (s : Scanner) (spot : Spot) : Option Scanner :=
  let isStale := fun key : Option PossibleKey => key.any (PossibleKey.isStale spot)
  if (s.key :: s.outer).any fun key => isStale key && key.any PossibleKey.required then none
  else
    let refresh := fun key => if isStale key then none else key
    some { s with key := refresh s.key, outer := s.outer.map refresh }

/-! ### Block collections -/

/-- Ends the block collections whose entries stand in a column or further to the right. -/
def closeBlocks (s : Scanner) (column : Nat) : Scanner :=
  if s.inFlow then s
  else
    let closed := s.blocks.takeWhile (column ≤ ·)
    { s with
      done := List.replicate closed.length .blockEnd ++ s.done
      blocks := s.blocks.drop closed.length }

/-- Whether an entry in a column begins a block collection. -/
def opensBlock (s : Scanner) (column : Nat) : Bool := !s.inFlow && s.least ≤ column

/-- Begins a block collection in a column, unless one has already begun there. -/
def openBlock (s : Scanner) (column : Nat) (token : Token) : Scanner :=
  if s.opensBlock column then { s.emit token with blocks := column :: s.blocks } else s

/-! ### Marks -/

def openFlow (s : Scanner) (spot : Spot) (token : Token) : Option Scanner := do
  let s ← s.noteKey spot
  pure { s.emit token with key := none, outer := s.key :: s.outer, keyAllowed := true }

def closeFlow (s : Scanner) (token : Token) : Option Scanner := do
  let s ← s.forgetKey
  pure { s.emit token with
    key := (s.outer.head?).getD none, outer := s.outer.tail, keyAllowed := false }

def flowEntry (s : Scanner) : Option Scanner := do
  let s ← s.forgetKey
  pure { s.emit .flowEntry with keyAllowed := true }

def blockEntry (s : Scanner) (spot : Spot) : Option Scanner := do
  guard (s.inFlow || s.keyAllowed)
  let s ← (s.openBlock spot.column .blockSequenceStart).forgetKey
  pure { s.emit .blockEntry with keyAllowed := true }

def keyMark (s : Scanner) (spot : Spot) : Option Scanner := do
  guard (s.inFlow || s.keyAllowed)
  let s ← (s.openBlock spot.column .blockMappingStart).forgetKey
  pure { s.emit .key with keyAllowed := !s.inFlow }

/-- Marks a possible key as one, where it began. -/
def markKey (s : Scanner) (key : PossibleKey) : Scanner :=
  let within := s.done.take (s.done.length - key.before)
  let around := { s with done := s.done.drop within.length }
  let marked := (around.openBlock key.column .blockMappingStart).emit .key
  { marked with done := within ++ marked.done, key := none, keyAllowed := false }

def valueMark (s : Scanner) (spot : Spot) : Option Scanner :=
  match s.key with
  | some key => some ((s.markKey key).emit .value)
  | none => do
    guard (s.inFlow || s.keyAllowed)
    let s := s.openBlock spot.column .blockMappingStart
    pure { s.emit .value with keyAllowed := !s.inFlow }

/-- A token that nothing but a key or a value begins with. -/
def content (s : Scanner) (spot : Spot) (token : Token) : Option Scanner := do
  let s ← s.noteKey spot
  pure { s.emit token with keyAllowed := false }

/-- A token that stands outside of all blocks. -/
def outside (s : Scanner) (token : Token) : Option Scanner := do
  let s ← (s.closeBlocks 0).forgetKey
  pure { s.emit token with keyAllowed := false }

/-! ### Words -/

/-- A plain scalar.  Keys may begin again on the line after it. -/
def plain (s : Scanner) (spot : Spot) (rest : List Spot) : Option (Scanner × List Spot) := do
  let (text, run, after) ← plainFrom s.inFlow s.least [] (spot :: rest)
  let s ← s.content spot (.scalar .plain (String.ofList text))
  pure ({ s with keyAllowed := run.any isBreak }, after)

def quoted (s : Scanner) (spot : Spot) (read : Option (List Char × List Spot)) :
    Option (Scanner × List Spot) := do
  let (text, after) ← read
  pure (← s.content spot (.scalar .quoted (String.ofList text)), after)

def block (s : Scanner) (style : Style) (rest : List Spot) : Option (Scanner × List Spot) := do
  let (text, after) ← blockScalar (style == .folded) s.least rest
  let s ← s.forgetKey
  pure ({ s.emit (.scalar style (String.ofList text)) with keyAllowed := true }, after)

/-- A token that begins with a certain character, and the place behind it. -/
def marked (s : Scanner) (spot : Spot) (rest : List Spot) : Option (Scanner × List Spot) :=
  match spot.char with
  | '[' => (s.openFlow spot .flowSequenceStart).map (·, rest)
  | '{' => (s.openFlow spot .flowMappingStart).map (·, rest)
  | ']' => (s.closeFlow .flowSequenceEnd).map (·, rest)
  | '}' => (s.closeFlow .flowMappingEnd).map (·, rest)
  | ',' => s.flowEntry.map (·, rest)
  | '*' => do
    let (name, after) ← anchorName? rest
    pure (← s.content spot (.reference name), after)
  | '&' => do
    let (name, after) ← anchorName? rest
    pure (← s.content spot (.anchor name), after)
  | '!' => do
    let (token, after) ← tag? s.inFlow (spot :: rest)
    pure (← s.content spot token, after)
  | '\'' => s.quoted spot (singleQuoted [] rest)
  | '"' => s.quoted spot (doubleQuoted false [] rest)
  | '|' => if s.inFlow then none else s.block .literal rest
  | '>' => if s.inFlow then none else s.block .folded rest
  | c => if startsPlain s.inFlow c rest then s.plain spot rest else none

def token (s : Scanner) (spot : Spot) (rest : List Spot) : Option (Scanner × List Spot) :=
  if spot.column = 0 && spot.char = '%' then do
    let (directive, after) ← directive? rest
    pure (← s.outside directive, after)
  else if startsMarker '-' (spot :: rest) then (s.outside .documentStart).map (·, rest.drop 2)
  else if startsMarker '.' (spot :: rest) then (s.outside .documentEnd).map (·, rest.drop 2)
  else if spot.char = '-' && startsBlank rest then (s.blockEntry spot).map (·, rest)
  else if spot.char = '?' && (s.inFlow || startsBlank rest) then (s.keyMark spot).map (·, rest)
  else if spot.char = ':' && (s.inFlow || startsBlank rest) then (s.valueMark spot).map (·, rest)
  else s.marked spot rest

/-! ### Whole documents -/

/-- The next place that is neither blank nor comment.  A tab counts as a blank only where no key may
begin, and in a block the next line allows keys again. -/
def skip (s : Scanner) (comment : Bool) : List Spot → Scanner × List Spot
  | [] => (s, [])
  | spot :: rest =>
    if isBreak spot.char then skip { s with keyAllowed := s.keyAllowed || !s.inFlow } false rest
    else if comment then skip s true rest
    else if spot.char = ' ' || (spot.char = '\t' && (s.inFlow || !s.keyAllowed)) then skip s false rest
    else if spot.char = '#' then skip s true rest
    else (s, spot :: rest)

/-- The tokens from a place on, and those before it; each token takes one unit of fuel. -/
def run (fuel : Nat) (s : Scanner) (spots : List Spot) : Option (List Token) :=
  match fuel with
  | 0 => none
  | fuel + 1 =>
    match s.skip false spots with
    | (s, []) => (s.closeBlocks 0).forgetKey.map fun s => s.done.reverse
    | (s, spot :: rest) => do
      let s ← s.forgetStale spot
      let (s, after) ← (s.closeBlocks (spot.column + 1)).token spot rest
      run fuel s after

end Scanner

/-- The tokens of a document.  Each of them has a character of its own. -/
def tokens? (spots : List Spot) : Option (List Token) := Scanner.start.run (spots.length + 1) spots

end Yaml

end TemplateExpr
