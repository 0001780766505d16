import TemplateExpr.Yaml.Basic
import TemplateExpr.Yaml.Scan

/-!
# Reading YAML

The grammar of documents over tokens.  Where a key, a value or an item is left out there is an empty
scalar, and an anchor or tag may stand before nothing as well.  The functions on nodes take fuel, one unit
for each step; of three steps in a row one takes a token, so the number of tokens bounds them.
-/

namespace TemplateExpr

namespace Yaml

/-- The tokens that are left, and the anchors so far: a name with the number it has now. -/
structure Remaining where
  anchors : List (String × Nat)
  tokens : List Token

namespace Remaining

/-- The same anchors before other tokens. -/
def before (r : Remaining) (tokens : List Token) : Remaining := { r with tokens := tokens }

/-- A new anchor of a name.  Its number is how many names there are, which is new unless the name
was there already. -/
def label (r : Remaining) (name : String) : Nat × Remaining :=
  (r.anchors.length,
    { r with anchors := (name, r.anchors.length) :: r.anchors.filter fun anchor => anchor.1 != name })

/-- Whether the next token is one of several; the end of the tokens is not. -/
def isAt (r : Remaining) (ends : List Token) : Bool := r.tokens.head?.any (· ∈ ends)

end Remaining

/-! ### Anchors and tags -/

/-- A tag in full; a handle that is not known has none. -/
def fullTag? (handles : List (String × String)) (handle suffix : String) : Option String :=
  if handle = "" then some suffix else (handles.lookup handle).map (· ++ suffix)

def properties? (handles : List (String × String)) (r : Remaining) : Option (Properties × Remaining) :=
  match r.tokens with
  | .anchor name :: .tag handle suffix :: rest | .tag handle suffix :: .anchor name :: rest => do
    let (number, r) := r.label name
    pure (⟨some number, some (← fullTag? handles handle suffix)⟩, r.before rest)
  | .anchor name :: rest =>
    let (number, r) := r.label name
    some (⟨some number, none⟩, r.before rest)
  | .tag handle suffix :: rest => do
    pure (⟨none, some (← fullTag? handles handle suffix)⟩, r.before rest)
  | _ => some (.bare, r)

/-- The properties of a scalar that is there: an exclamation mark alone is no tag. -/
def Properties.ofScalar (properties : Properties) : Properties :=
  if properties.tag = some "!" then { properties with tag := none } else properties

/-! ### Nodes -/

/-- A node, or an empty one if the next token is one of several that end it. -/
def orEmpty (ends : List Token) (node : Remaining → Option (Yaml × Remaining)) (r : Remaining) :
    Option (Yaml × Remaining) :=
  if r.isAt ends then some (empty, r) else node r

mutual

/-- A node.  Only in a block may a block collection begin, and only as a part of a mapping the items of a
sequence in the column of the keys. -/
def node (handles : List (String × String)) (fuel : Nat) (block inMapping : Bool) (r : Remaining) :
    Option (Yaml × Remaining) :=
  match fuel with
  | 0 => none
  | fuel + 1 =>
    match r.tokens with
    | .reference name :: rest => (r.anchors.lookup name).map fun number => (reference number, r.before rest)
    | _ => do
      let (properties, r) ← properties? handles r
      match r.tokens, block with
      | .scalar style text :: rest, _ => pure (scalar properties.ofScalar style text, r.before rest)
      | .flowSequenceStart :: rest, _ => flowItems handles fuel properties true [] (r.before rest)
      | .flowMappingStart :: rest, _ => flowEntries handles fuel properties true [] (r.before rest)
      | .blockSequenceStart :: rest, true => blockItems handles fuel properties [] (r.before rest)
      | .blockMappingStart :: rest, true => blockEntries handles fuel properties [] (r.before rest)
      | _, _ =>
        if inMapping && r.isAt [.blockEntry] then alignedItems handles fuel properties [] r
        else if properties = .bare then none
        else pure (scalar properties .plain "", r)

/-- The items of a block sequence up to its end. -/
def blockItems (handles : List (String × String)) (fuel : Nat) (properties : Properties)
    (done : List Yaml) (r : Remaining) : Option (Yaml × Remaining) :=
  match fuel with
  | 0 => none
  | fuel + 1 =>
    match r.tokens with
    | .blockEntry :: rest => do
      let (item, r) ← orEmpty [.blockEntry, .blockEnd] (fun r => node handles fuel true false r)
        (r.before rest)
      blockItems handles fuel properties (item :: done) r
    | .blockEnd :: rest => pure (sequence properties done.reverse, r.before rest)
    | _ => none

/-- The items of a sequence in the column of the keys around it. -/
def alignedItems (handles : List (String × String)) (fuel : Nat) (properties : Properties)
    (done : List Yaml) (r : Remaining) : Option (Yaml × Remaining) :=
  match fuel with
  | 0 => none
  | fuel + 1 =>
    match r.tokens with
    | .blockEntry :: rest => do
      let (item, r) ← orEmpty [.blockEntry, .key, .value, .blockEnd]
        (fun r => node handles fuel true false r) (r.before rest)
      alignedItems handles fuel properties (item :: done) r
    | _ => pure (sequence properties done.reverse, r)

def blockEntries (handles : List (String × String)) (fuel : Nat) (properties : Properties)
    (done : List (Yaml × Yaml)) (r : Remaining) : Option (Yaml × Remaining) :=
  match fuel with
  | 0 => none
  | fuel + 1 =>
    match r.tokens with
    | .key :: rest => do
      let part := orEmpty [.key, .value, .blockEnd] fun r => node handles fuel true true r
      let (key, r) ← part (r.before rest)
      let (value, r) ← match r.tokens with
        | .value :: rest => part (r.before rest)
        | _ => pure (empty, r)
      blockEntries handles fuel properties ((key, value) :: done) r
    | .blockEnd :: rest => pure (mapping properties done.reverse, r.before rest)
    | _ => none

/-- The items of a flow sequence up to its bracket, each but the first behind a comma.  An item may be
a single entry of a mapping; where its key is left out, the token behind the key's mark is lost. -/
def flowItems (handles : List (String × String)) (fuel : Nat) (properties : Properties) (first : Bool)
    (done : List Yaml) (r : Remaining) : Option (Yaml × Remaining) :=
  match fuel with
  | 0 => none
  | fuel + 1 =>
    match r.tokens, first with
    | .flowSequenceEnd :: rest, _ | .flowEntry :: .flowSequenceEnd :: rest, false =>
      pure (sequence properties done.reverse, r.before rest)
    | .flowEntry :: rest, false => flowItem handles fuel properties done (r.before rest)
    | _, false => none
    | _, true => flowItem handles fuel properties done r

/-- An item of a flow sequence and the items behind it. -/
def flowItem (handles : List (String × String)) (fuel : Nat) (properties : Properties)
    (done : List Yaml) (r : Remaining) : Option (Yaml × Remaining) :=
  match fuel with
  | 0 => none
  | fuel + 1 =>
    match r.tokens with
    | .key :: rest => do
      let (key, r) ← if (r.before rest).isAt [.value, .flowEntry, .flowSequenceEnd] then
          pure (empty, r.before (rest.drop 1))
        else node handles fuel false false (r.before rest)
      let (value, r) ← match r.tokens with
        | .value :: rest =>
          orEmpty [.flowEntry, .flowSequenceEnd] (fun r => node handles fuel false false r)
            (r.before rest)
        | _ => pure (empty, r)
      flowItems handles fuel properties false (mapping .bare [(key, value)] :: done) r
    | _ => do
      let (item, r) ← node handles fuel false false r
      flowItems handles fuel properties false (item :: done) r

/-- The entries of a flow mapping up to its brace, each but the first behind a comma. -/
def flowEntries (handles : List (String × String)) (fuel : Nat) (properties : Properties)
    (first : Bool) (done : List (Yaml × Yaml)) (r : Remaining) : Option (Yaml × Remaining) :=
  match fuel with
  | 0 => none
  | fuel + 1 =>
    match r.tokens, first with
    | .flowMappingEnd :: rest, _ | .flowEntry :: .flowMappingEnd :: rest, false =>
      pure (mapping properties done.reverse, r.before rest)
    | .flowEntry :: rest, false => flowEntry handles fuel properties done (r.before rest)
    | _, false => none
    | _, true => flowEntry handles fuel properties done r

/-- An entry of a flow mapping, perhaps a key alone, and the entries behind it. -/
def flowEntry (handles : List (String × String)) (fuel : Nat) (properties : Properties)
    (done : List (Yaml × Yaml)) (r : Remaining) : Option (Yaml × Remaining) :=
  match fuel with
  | 0 => none
  | fuel + 1 =>
    match r.tokens with
    | .key :: rest => do
      let (key, r) ← orEmpty [.value, .flowEntry, .flowMappingEnd]
        (fun r => node handles fuel false false r) (r.before rest)
      let (value, r) ← match r.tokens with
        | .value :: rest =>
          orEmpty [.flowEntry, .flowMappingEnd] (fun r => node handles fuel false false r)
            (r.before rest)
        | _ => pure (empty, r)
      flowEntries handles fuel properties false ((key, value) :: done) r
    | _ => do
      let (key, r) ← node handles fuel false false r
      flowEntries handles fuel properties false ((key, empty) :: done) r

end

/-! ### Whole documents -/

def standardHandles : List (String × String) := [("!", "!"), ("!!", "tag:yaml.org,2002:")]

/-- The handles after the directives of a document, and the tokens behind them.  Each handle is declared
once, and the version is 1.1 or 1.2. -/
def directives? (versioned : Bool) (handles : List (String × String)) :
    List Token → Option (List (String × String) × List Token)
  | .version major minor :: rest =>
    if versioned || major != 1 || (minor != 1 && minor != 2) then none else directives? true handles rest
  | .shorthand handle lead :: rest =>
    if (handles.lookup handle).isSome then none
    else directives? versioned ((handle, lead) :: handles) rest
  | tokens => some (handles ++ standardHandles, tokens)

/-- The root of the only document among the tokens, of which there may be none.  A document begins with
its marker, which may be left out if there are no directives. -/
def root? (tokens : List Token) : Option Yaml := do
  let (handles, rest) ← directives? false [] tokens
  let isMarked := rest.head? == some .documentStart
  guard (isMarked || rest.length == tokens.length)
  let r : Remaining := ⟨[], if isMarked then rest.drop 1 else rest⟩
  let (root, r) ← if r.tokens.isEmpty || (isMarked && r.isAt [.documentEnd]) then pure (empty, r)
    else node handles (3 * tokens.length + 3) true false r
  guard (r.tokens.all (· == .documentEnd))
  pure root

def read? (s : String) : Option Yaml := do
  let spots ← spots? s
  let tokens ← tokens? spots
  root? tokens

end Yaml

end TemplateExpr
