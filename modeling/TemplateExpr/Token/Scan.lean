import TemplateExpr.Token.StringLiteral
import TemplateExpr.Text.Letter

/-!
# From source to tokens

A source is read from the left: layout is skipped, and each token takes as many characters as it can.
-/

namespace TemplateExpr

/-- A character that may begin a name. -/
def isNameStart (c : Char) : Bool := c == '_' || c == '$' || isLetter c

/-- A character that may stand within a name: those that begin one, numbers, and the two joiners. -/
def isNamePart (c : Char) : Bool :=
  isNameStart c || isNumber c || c.toNat == 0x200c || c.toNat == 0x200d

/-- Where a source fails: the cause, and the number of characters between the start of the token and
the place it refers to. -/
abbrev ScanFault := SyntaxCause × Nat

/-! ### Numerals -/

/-- A zero and at least one digit more, all of them octal. -/
def isLegacyOctal (cs : List Char) : Bool :=
  2 ≤ cs.length && cs.head? == some '0' && cs.all (isDigitIn 8)

/-- The exponent of a numeral, if one follows; `none` if it lacks its digits. -/
def exponentText? : List Char → Option (List Char)
  | [] => some []
  | e :: rest =>
    if e = 'e' ∨ e = 'E' then
      let sign := (rest.take 1).filter fun c => c == '+' || c == '-'
      let digits := (rest.drop sign.length).takeWhile Char.isDigit
      if digits.isEmpty then none else some (e :: (sign ++ digits))
    else some []

/-- A decimal numeral whose first characters, a digit or point and the digits behind it, are `lead`:
its number and length. -/
def readDecimalNumeral (lead rest : List Char) : Except ScanFault (Double × Nat) :=
  let fraction := match rest with
    | '.' :: digits => '.' :: digits.takeWhile Char.isDigit
    | _ => []
  match exponentText? (rest.drop fraction.length) with
  | none => .error (.badNumeral, 0)
  | some exponent =>
    let text := lead ++ fraction ++ exponent
    match Double.readDecimal? text with
    | some value => .ok (value, text.length)
    | none => .error (.badNumeral, 0)

/-- A radix numeral with its digits at the front of `rest`: its number and length. -/
def readRadixNumeral (radix : Nat) (rest : List Char) : Except ScanFault (Double × Nat) :=
  let digits := rest.takeWhile (isDigitIn radix)
  if digits.isEmpty then .error (.badNumeral, 0)
  else .ok (Double.readRadix radix digits, digits.length + 2)

/-- A numeral that begins with `c`: its number and length. -/
def readNumeral (c : Char) (rest : List Char) : Except ScanFault (Double × Nat) :=
  let decimal :=
    let lead := c :: rest.takeWhile Char.isDigit
    if isLegacyOctal lead then .ok (Double.readRadix 8 lead.tail, lead.length)
    else readDecimalNumeral lead (rest.dropWhile Char.isDigit)
  match rest with
  | letter :: digits =>
    match if c = '0' then Double.radixOfLetter? letter else none with
    | some radix => readRadixNumeral radix digits
    | none => decimal
  | [] => decimal

/-- A numeral that nothing follows that could belong to a name or numeral. -/
def readSeparateNumeral (c : Char) (rest : List Char) : Except ScanFault (Double × Nat) := do
  let (value, length) ← readNumeral c rest
  match (c :: rest)[length]? with
  | some next =>
    if isNameStart next || next.isDigit then .error (.nameAfterNumeral, length)
    else pure (value, length)
  | none => pure (value, length)

/-! ### Symbols -/

/-- The longest symbol at the front of a text. -/
def readSymbol? : List Char → Option Symbol
  | '?' :: '?' :: _ => some .nullish
  | '?' :: _ => some .question
  | '!' :: '=' :: '=' :: _ => some .strictNotEq
  | '!' :: '=' :: _ => some .notEq
  | '!' :: _ => some .bang
  | '=' :: '=' :: '=' :: _ => some .strictEq
  | '=' :: '=' :: _ => some .eq
  | '<' :: '=' :: _ => some .ltEq
  | '<' :: _ => some .lt
  | '>' :: '=' :: _ => some .gtEq
  | '>' :: _ => some .gt
  | '&' :: '&' :: _ => some .and
  | '|' :: '|' :: _ => some .or
  | '.' :: _ => some .dot
  | '[' :: _ => some .leftBracket
  | ']' :: _ => some .rightBracket
  | '(' :: _ => some .leftParen
  | ')' :: _ => some .rightParen
  | ',' :: _ => some .comma
  | ':' :: _ => some .colon
  | ';' :: _ => some .semicolon
  | '+' :: _ => some .plus
  | '-' :: _ => some .minus
  | '*' :: _ => some .star
  | '/' :: _ => some .slash
  | '%' :: _ => some .percent
  | _ => none

/-! ### Tokens -/

/-- Whether a numeral begins with `c`: a digit, or a point before a digit. -/
def startsNumeral (c : Char) (rest : List Char) : Bool :=
  c.isDigit || (c == '.' && rest.head?.any Char.isDigit)

/-- The token that begins with `c`, which is no layout, and its length. -/
def readToken (c : Char) (rest : List Char) : Except ScanFault (TokenKind × Nat) :=
  if c = '\'' ∨ c = '"' then do
    let (pieces, length) ← readStringBody c 1 [] rest
    pure (.string (String.ofList (StringPiece.join pieces)), length)
  else if startsNumeral c rest then do
    let (value, length) ← readSeparateNumeral c rest
    pure (.number value, length)
  else if isNameStart c then
    let name := c :: rest.takeWhile isNamePart
    .ok (.name (String.ofList name), name.length)
  else
    match readSymbol? (c :: rest) with
    | some symbol => .ok (.symbol symbol, symbol.text.length)
    | none => .error (.strayCharacter c, 0)

/-- The tokens of a text that begins at `position`, behind those of `done` in reverse. -/
def scan (position : Nat) (done : List Token) : List Char → Except SyntaxError (List Token)
  | [] => .ok done.reverse
  | c :: rest =>
    if isLayout c then scan (position + c.utf8Size) done rest
    else
      match readToken c rest with
      | .error (cause, offset) => .error ⟨cause, position + utf8Length ((c :: rest).take offset)⟩
      | .ok (kind, length) =>
        scan (position + c.utf8Size + utf8Length (rest.take (length - 1))) (⟨kind, position⟩ :: done)
          (rest.drop (length - 1))
termination_by cs => cs.length
decreasing_by
  · simp only [List.length_cons]; omega
  · simp only [List.length_drop, List.length_cons]; omega

def tokenize (source : String) : Except SyntaxError (List Token) := scan 0 [] source.toList

end TemplateExpr
