import TemplateExpr.Yaml.Scan

/-!
# Lines of a block mapping

How the scanner takes a line `key: value` of a block mapping, where the key is a word and the value is a word
too, plain or between single quotes, or the mapping on the lines below.  A line is two steps: the key with its
colon, and the value with the line end and the indentation behind it.  Between them no key has begun and nothing
is left over, so the state is the tokens and the open columns alone.
-/

namespace TemplateExpr

namespace Yaml

/-! ### Words -/

/-- A character that stands for itself wherever it is in a scalar. -/
def isWordChar (c : Char) : Bool := c.isAlphanum || c == '_' || c == '$'

section

variable {c : Char}

theorem ne_of_isWordChar {d : Char} (h : isWordChar c) (hd : isWordChar d = false) : c ≠ d := by
  rintro rfl
  rw [h] at hd
  cases hd

theorem isGap_of_isWordChar (h : isWordChar c) : isGap c = false := by
  simp only [isGap, Bool.or_eq_false_iff, beq_eq_false_iff_ne]
  and_intros <;> exact ne_of_isWordChar h (by decide)

theorem isBreak_of_isWordChar (h : isWordChar c) : isBreak c = false := by
  simp only [isBreak, Bool.or_eq_false_iff, beq_eq_false_iff_ne]
  and_intros <;> exact ne_of_isWordChar h (by decide)

theorem isGapOrBreak_of_isWordChar (h : isWordChar c) : isGapOrBreak c = false := by
  rw [isGapOrBreak, isGap_of_isWordChar h, isBreak_of_isWordChar h]
  rfl

theorem isFlowIndicator_of_isWordChar (h : isWordChar c) : isFlowIndicator c = false := by
  simp only [isFlowIndicator, Bool.or_eq_false_iff, beq_eq_false_iff_ne]
  and_intros <;> exact ne_of_isWordChar h (by decide)

theorem isMarkup_of_isWordChar (h : isWordChar c) : isMarkup c = false := by
  simp only [isMarkup, Bool.or_eq_false_iff, beq_eq_false_iff_ne]
  and_intros <;> exact ne_of_isWordChar h (by decide)

theorem startsPlain_of_isWordChar (h : isWordChar c) (rest : List Spot) : startsPlain false c rest := by
  have dash : c ≠ '-' := ne_of_isWordChar h (by decide)
  have question : c ≠ '?' := ne_of_isWordChar h (by decide)
  have colon : c ≠ ':' := ne_of_isWordChar h (by decide)
  simp [startsPlain, dash, question, colon, isGapOrBreak_of_isWordChar h, isFlowIndicator_of_isWordChar h,
    isMarkup_of_isWordChar h]

theorem startsMarker_of_ne {mark : Char} {spot : Spot} (h : spot.char ≠ mark) (rest : List Spot) :
    startsMarker mark (spot :: rest) = false := by
  unfold startsMarker
  split
  · rename_i same
    cases same
    simp [h]
  · rfl

end

/-! ### Places -/

theorem locate_cons {c : Char} (h : isBreak c = false) (line column : Nat) (rest : List Char) :
    locate line column (c :: rest) = ⟨c, line, column⟩ :: locate line (column + 1) rest := by
  rw [locate, h]
  rfl

theorem locate_newline (line column : Nat) (rest : List Char) :
    locate line column ('\n' :: rest) = ⟨'\n', line, column⟩ :: locate (line + 1) 0 rest := rfl

theorem locate_space (line column : Nat) (rest : List Char) :
    locate line column (' ' :: rest) = ⟨' ', line, column⟩ :: locate line (column + 1) rest := rfl

/-- The end of a line with the indentation of the next one. -/
def lineEnd (n : Nat) (rest : List Char) : List Char := '\n' :: (List.replicate n ' ' ++ rest)

/-- A text that begins with a word or is empty. -/
def BeginsWord (rest : List Char) : Prop := ∀ c ∈ rest.head?, isWordChar c

theorem beginsWord_nil : BeginsWord [] := nofun

/-! ### Plain scalars -/

theorem plainFrom_word {w : List Char} (hw : ∀ c ∈ w, isWordChar c) (least line column : Nat)
    (rest : List Char) :
    plainFrom false least [] (locate line column (w ++ rest)) =
      (plainFrom false least [] (locate line (column + w.length) rest)).map
        fun found => (w ++ found.1, found.2) := by
  induction w generalizing column with
  | nil => simp
  | cons c w ih =>
    have hc : isWordChar c := hw c List.mem_cons_self
    have dash : c ≠ '-' := ne_of_isWordChar hc (by decide)
    have dot : c ≠ '.' := ne_of_isWordChar hc (by decide)
    have colon : c ≠ ':' := ne_of_isWordChar hc (by decide)
    have behind : column + 1 + w.length = column + (c :: w).length := by
      rw [List.length_cons]
      omega
    rw [List.cons_append, locate_cons (isBreak_of_isWordChar hc), plainFrom,
      ih fun c h => hw c (List.mem_cons_of_mem _ h), behind]
    simp [isBreak_of_isWordChar hc, isGap_of_isWordChar hc, atMarker, startsMarker_of_ne, dash, dot, colon,
      isStrayColon, endsPlain, foldRun_nil, Function.comp_def]

theorem plainFrom_colon (least line column : Nat) {rest : List Char}
    (h : ∀ line column, startsBlank (locate line column rest)) :
    plainFrom false least [] (locate line column (':' :: rest)) =
      some ([], [], locate line column (':' :: rest)) := by
  rw [locate_cons rfl, plainFrom]
  simp [isBreak, isGap, atMarker, startsMarker_of_ne, isStrayColon, endsPlain, h]

theorem plainFrom_spaces (least line column n : Nat) (run rest : List Char) :
    plainFrom false least run (locate line column (List.replicate n ' ' ++ rest)) =
      plainFrom false least (List.replicate n ' ' ++ run) (locate line (column + n) rest) := by
  induction n generalizing column run with
  | zero => rfl
  | succ n ih =>
    have spaces : List.replicate n ' ' ++ ' ' :: run = List.replicate (n + 1) ' ' ++ run := by
      rw [List.append_cons, ← List.replicate_succ']
    have behind : column + 1 + n = column + (n + 1) := by omega
    rw [List.replicate_succ, List.cons_append, locate_space, plainFrom, ← List.replicate_succ, ← spaces,
      ← behind, ← ih]
    simp [isBreak, isGap]

theorem plainFrom_lineEnd {least n : Nat} (hn : n < least) {rest : List Char} (hrest : BeginsWord rest)
    (line column : Nat) :
    plainFrom false least [] (locate line column (lineEnd n rest)) =
      some ([], List.replicate n ' ' ++ ['\n'], locate (line + 1) n rest) := by
  rw [lineEnd, locate_newline, plainFrom, if_pos (by rfl), plainFrom_spaces, Nat.zero_add]
  -- A scalar goes on in the next line only if that is indented far enough, and this one is not.
  cases rest with
  | nil => rfl
  | cons c rest =>
    have hc : isWordChar c := hrest c rfl
    rw [locate_cons (isBreak_of_isWordChar hc), plainFrom]
    simp [isBreak_of_isWordChar hc, isGap_of_isWordChar hc, hn]

/-! ### Quoted scalars -/

theorem singleQuoted_word {w : List Char} (hw : ∀ c ∈ w, isWordChar c) {rest : List Char}
    (hrest : rest.head? ≠ some '\'') (line column : Nat) :
    singleQuoted [] (locate line column (w ++ '\'' :: rest)) =
      some (w, locate line (column + w.length + 1) rest) := by
  induction w generalizing column with
  | nil =>
    rw [List.nil_append, locate_cons rfl, singleQuoted.eq_def]
    cases rest with
    | nil => simp [isGapOrBreak, isGap, isBreak, atMarker, startsMarker_of_ne, locate, foldRun_nil]
    | cons c rest =>
      have hc : c ≠ '\'' := fun same => hrest (congrArg some same)
      simp [isGapOrBreak, isGap, isBreak, atMarker, startsMarker_of_ne, locate, foldRun_nil, hc]
  | cons c w ih =>
    have hc : isWordChar c := hw c List.mem_cons_self
    have dash : c ≠ '-' := ne_of_isWordChar hc (by decide)
    have dot : c ≠ '.' := ne_of_isWordChar hc (by decide)
    have quote : c ≠ '\'' := ne_of_isWordChar hc (by decide)
    have behind : column + 1 + w.length = column + (c :: w).length := by
      rw [List.length_cons]
      omega
    rw [List.cons_append, locate_cons (isBreak_of_isWordChar hc), singleQuoted.eq_def]
    simp [isGapOrBreak_of_isWordChar hc, atMarker, startsMarker_of_ne, dash, dot, quote,
      ih fun c h => hw c (List.mem_cons_of_mem _ h), continueWith, foldRun_nil, behind]

/-! ### Steps of the scanner -/

namespace Scanner

/-- With `n` tokens the scanner comes from one state and place to another. -/
def Reaches (n : Nat) (s : Scanner) (spots : List Spot) (s' : Scanner) (spots' : List Spot) : Prop :=
  ∀ fuel, run (fuel + n) s spots = run fuel s' spots'

theorem Reaches.trans {m n : Nat} {s s' s'' : Scanner} {spots spots' spots'' : List Spot}
    (h : Reaches m s spots s' spots') (h' : Reaches n s' spots' s'' spots'') :
    Reaches (m + n) s spots s'' spots'' := by
  intro fuel
  have split : fuel + (m + n) = fuel + n + m := by omega
  rw [split, h, h']

/-- A scanner between two tokens of a block, where no key has begun. -/
def between (done : List Token) (blocks : List Nat) (keyAllowed : Bool) : Scanner :=
  ⟨done, blocks, none, [], keyAllowed⟩

theorem skip_visible (s : Scanner) {spot : Spot} (blank : isGapOrBreak spot.char = false)
    (comment : spot.char ≠ '#') (rest : List Spot) : s.skip false (spot :: rest) = (s, spot :: rest) := by
  obtain ⟨gap, brk⟩ := Bool.or_eq_false_iff.1 blank
  simp only [isGap, Bool.or_eq_false_iff, beq_eq_false_iff_ne] at gap
  simp [skip, brk, gap.1, gap.2, comment]

theorem run_of_skip {s s' : Scanner} {spots spots' : List Spot} (h : s.skip false spots = (s', spots'))
    (h' : s'.skip false spots' = (s', spots')) : Reaches 0 s spots s' spots' := by
  intro fuel
  cases fuel with
  | zero => rfl
  | succ fuel => rw [Nat.add_zero, run, run, h, h']

theorem skip_word (s : Scanner) {c : Char} (h : isWordChar c) (line column : Nat) (rest : List Spot) :
    s.skip false (⟨c, line, column⟩ :: rest) = (s, ⟨c, line, column⟩ :: rest) :=
  @skip_visible s ⟨c, line, column⟩ (isGapOrBreak_of_isWordChar h) (ne_of_isWordChar h (by decide)) rest

/-- One token at a place that is neither blank nor comment. -/
theorem run_token {s kept s' : Scanner} {spot : Spot} {rest after : List Spot}
    (shown : s.skip false (spot :: rest) = (s, spot :: rest)) (fresh : s.forgetStale spot = some kept)
    (token : (kept.closeBlocks (spot.column + 1)).token spot rest = some (s', after)) :
    Reaches 1 s (spot :: rest) s' after := by
  intro fuel
  rw [run, shown]
  simp [fresh, token]

theorem forgetStale_between (done : List Token) (blocks : List Nat) (keyAllowed : Bool) (spot : Spot) :
    (between done blocks keyAllowed).forgetStale spot = some (between done blocks keyAllowed) := rfl

theorem token_word {s : Scanner} (block : s.outer = []) {c : Char} (h : isWordChar c) (line column : Nat)
    (rest : List Spot) : s.token ⟨c, line, column⟩ rest = s.plain ⟨c, line, column⟩ rest := by
  have ne (d : Char) (hd : isWordChar d = false) : c ≠ d := ne_of_isWordChar h hd
  have flow : s.inFlow = false := by rw [inFlow, block]; rfl
  have marked : s.marked ⟨c, line, column⟩ rest = s.plain ⟨c, line, column⟩ rest := by
    unfold Scanner.marked
    split
    all_goals first
      | exact absurd ‹_› (ne _ (by decide))
      | rw [flow, startsPlain_of_isWordChar h, if_pos rfl]
  simp [token, startsMarker_of_ne, ne '%' (by decide), ne '-' (by decide), ne '.' (by decide),
    ne '?' (by decide), ne ':' (by decide), marked]

-- A scalar where a key may begin is noted as one, and where none may it is just emitted.
theorem plain_key {done : List Token} {blocks : List Nat} {spot : Spot} {rest after : List Spot}
    {text run : List Char}
    (read : plainFrom false (between done blocks true).least [] (spot :: rest) = some (text, run, after)) :
    (between done blocks true).plain spot rest =
      some (⟨.scalar .plain (String.ofList text) :: done, blocks,
        some ⟨spot.line, spot.column, done.length, blocks.head? == some spot.column⟩, [],
        run.any isBreak⟩, after) := by
  have flow : (between done blocks true).inFlow = false := rfl
  rw [plain, flow, read]
  simp [content, noteKey, forgetKey, between, emit, inFlow]

theorem plain_value {done : List Token} {blocks : List Nat} {spot : Spot} {rest after : List Spot}
    {text run : List Char}
    (read : plainFrom false (between done blocks false).least [] (spot :: rest) = some (text, run, after)) :
    (between done blocks false).plain spot rest =
      some (between (.scalar .plain (String.ofList text) :: done) blocks (run.any isBreak), after) := by
  have flow : (between done blocks false).inFlow = false := rfl
  rw [plain, flow, read]
  rfl

theorem closeBlocks_of_head {s : Scanner} {column : Nat} (h : ∀ b ∈ s.blocks.head?, b < column) :
    s.closeBlocks column = s := by
  unfold closeBlocks
  split
  · rfl
  · have none : s.blocks.takeWhile (column ≤ ·) = [] := by
      cases blocks : s.blocks with
      | nil => rfl
      | cons b rest =>
        rw [blocks] at h
        have hb : b < column := h b rfl
        rw [List.takeWhile_cons_of_neg (by simpa using hb)]
    rw [none]
    rfl

/-- How the tokens and the open columns change where a key begins in a column: a mapping begins with it, or it is the
next one of its mapping, behind the mappings within it. -/
inductive Enters (column : Nat) : List Token → List Nat → List Token → List Nat → Prop where
  | first {done blocks} (inner : ∀ b ∈ blocks.head?, b < column) :
    Enters column done blocks (.blockMappingStart :: done) (column :: blocks)
  | next {done outer} : Enters column done (column :: outer) done (column :: outer)
  | closing {done done' b blocks blocks'} (inner : column < b)
    (enters : Enters column (.blockEnd :: done) blocks done' blocks') :
    Enters column done (b :: blocks) done' blocks'

theorem closeBlocks_cons {b column : Nat} (h : column ≤ b) (done : List Token) (blocks : List Nat)
    (keyAllowed : Bool) :
    (between done (b :: blocks) keyAllowed).closeBlocks column =
      (between (.blockEnd :: done) blocks keyAllowed).closeBlocks column := by
  have closed : (b :: blocks).takeWhile (column ≤ ·) = b :: blocks.takeWhile (column ≤ ·) :=
    List.takeWhile_cons_of_pos (by simpa using h)
  simp only [closeBlocks, inFlow, between, closed, List.length_cons, List.drop_succ_cons, List.replicate_succ',
    List.append_assoc, List.singleton_append]
  rfl

theorem Enters.split {column : Nat} {done done' : List Token} {blocks blocks' : List Nat}
    (h : Enters column done blocks done' blocks') :
    ∃ kept left, (between done blocks true).closeBlocks (column + 1) = between kept left true ∧
      (∀ b ∈ left.head?, b < column + 1) ∧
      (between kept left false).openBlock column .blockMappingStart = between done' blocks' false := by
  induction h with
  | @first done blocks inner =>
    have inner' : ∀ b ∈ blocks.head?, b < column + 1 := fun b hb => Nat.lt_succ_of_lt (inner b hb)
    have opens : (between done blocks false).opensBlock column = true := by
      cases blocks with
      | nil => exact decide_eq_true (Nat.zero_le column)
      | cons b blocks => exact decide_eq_true (Nat.succ_le_of_lt (inner b rfl))
    refine ⟨done, blocks, closeBlocks_of_head inner', inner', ?_⟩
    rw [openBlock, if_pos opens]
    rfl
  | @next done outer =>
    have inner : ∀ b ∈ (column :: outer).head?, b < column + 1 := by
      rintro b ⟨⟩
      exact Nat.lt_succ_self column
    have opens : (between done (column :: outer) false).opensBlock column = false :=
      decide_eq_false (Nat.not_succ_le_self column)
    refine ⟨done, column :: outer, closeBlocks_of_head inner, inner, ?_⟩
    rw [openBlock, opens]
    rfl
  | closing inner _ ih =>
    obtain ⟨kept, left, closes, rest⟩ := ih
    exact ⟨kept, left, (closeBlocks_cons inner ..).trans closes, rest⟩

/-! ### Keys -/

/-- A scanner behind a plain scalar that began in a place where a key may begin. -/
def named (done : List Token) (blocks : List Nat) (line column : Nat) (text : String) : Scanner :=
  ⟨.scalar .plain text :: done, blocks, some ⟨line, column, done.length, blocks.head? == some column⟩, [],
    false⟩

theorem word_reaches {done done' : List Token} {blocks blocks' : List Nat} {column : Nat}
    (closes : (between done blocks true).closeBlocks (column + 1) = between done' blocks' true)
    {w : List Char} (hw : ∀ c ∈ w, isWordChar c) (ne_nil : w ≠ []) {rest : List Char}
    (hrest : ∀ line column, startsBlank (locate line column rest)) (line : Nat) :
    Reaches 1 (between done blocks true) (locate line column (w ++ ':' :: rest))
      (named done' blocks' line column (String.ofList w))
      (locate line (column + w.length) (':' :: rest)) := by
  obtain ⟨c, w', rfl⟩ := List.exists_cons_of_ne_nil ne_nil
  have hc : isWordChar c := hw c List.mem_cons_self
  have here : locate line column (c :: w' ++ ':' :: rest) =
      ⟨c, line, column⟩ :: locate line (column + 1) (w' ++ ':' :: rest) :=
    locate_cons (isBreak_of_isWordChar hc) ..
  have read : plainFrom false (between done' blocks' true).least []
      (⟨c, line, column⟩ :: locate line (column + 1) (w' ++ ':' :: rest)) =
        some (c :: w', [], locate line (column + (c :: w').length) (':' :: rest)) := by
    rw [← here, plainFrom_word hw, plainFrom_colon _ _ _ hrest, Option.map_some, List.append_nil]
  rw [here]
  refine run_token (skip_word _ hc _ _ _) (forgetStale_between ..) ?_
  rw [closes, token_word rfl hc _ _ _]
  exact plain_key read

theorem markKey_named {done done' : List Token} {blocks blocks' : List Nat} {column : Nat}
    (opens : (between done blocks false).openBlock column .blockMappingStart = between done' blocks' false)
    (line : Nat) (text : String) :
    (named done blocks line column text).markKey ⟨line, column, done.length, blocks.head? == some column⟩ =
      between (.scalar .plain text :: .key :: done') blocks' false := by
  have within : (Token.scalar .plain text :: done).take
      ((Token.scalar .plain text :: done).length - done.length) = [.scalar .plain text] := by simp
  have opens' : ∀ key, openBlock ⟨done, blocks, key, [], false⟩ column .blockMappingStart =
      ⟨done', blocks', key, [], false⟩ := by
    intro key
    have same : opensBlock ⟨done, blocks, key, [], false⟩ column =
        opensBlock (between done blocks false) column := rfl
    unfold openBlock at opens ⊢
    rw [same]
    split <;> simp_all [between, emit]
  -- Only here it shows whether a mapping begins with the key: its token goes in front of the word, back where the
  -- key began.
  unfold markKey named
  dsimp only
  rw [within, List.length_singleton, List.drop_succ_cons, List.drop_zero, opens']
  rfl

theorem colon_reaches {done done' : List Token} {blocks blocks' : List Nat} {column length : Nat}
    (inner : ∀ b ∈ blocks.head?, b < column + 1)
    (opens : (between done blocks false).openBlock column .blockMappingStart = between done' blocks' false)
    (short : length ≤ 1024) {rest : List Char} (hrest : ∀ line column, startsBlank (locate line column rest))
    (line : Nat) (text : String) :
    Reaches 1 (named done blocks line column text) (locate line (column + length) (':' :: rest))
      (between (.value :: .scalar .plain text :: .key :: done') blocks' false)
      (locate line (column + length + 1) rest) := by
  have recent : PossibleKey.isStale ⟨':', line, column + length⟩
      ⟨line, column, done.length, blocks.head? == some column⟩ = false := by
    simp [PossibleKey.isStale]
    omega
  have fresh : (named done blocks line column text).forgetStale ⟨':', line, column + length⟩ =
      some (named done blocks line column text) := by
    simp [named, forgetStale, recent]
  have stays : (named done blocks line column text).closeBlocks (column + length + 1) =
      named done blocks line column text := by
    refine closeBlocks_of_head fun b hb => ?_
    have left : b < column + 1 := inner b hb
    omega
  have mark : (named done blocks line column text).valueMark ⟨':', line, column + length⟩ =
      some (((named done blocks line column text).markKey
        ⟨line, column, done.length, blocks.head? == some column⟩).emit .value) := rfl
  rw [locate_cons rfl]
  refine run_token (skip_visible _ rfl (by simp) _) fresh ?_
  rw [stays]
  simp [token, startsMarker_of_ne, hrest, mark, markKey_named opens]
  rfl

/-- What may stand in front of a colon as a key. -/
structure IsKey (key : List Char) : Prop where
  all : key.all isWordChar
  ne_nil : key ≠ []
  short : key.length ≤ 1024

instance : DecidablePred IsKey := fun key =>
  decidable_of_iff (key.all isWordChar ∧ key ≠ [] ∧ key.length ≤ 1024)
    ⟨fun ⟨all, ne_nil, short⟩ => ⟨all, ne_nil, short⟩, fun h => ⟨h.all, h.ne_nil, h.short⟩⟩

theorem IsKey.word {key : List Char} (h : IsKey key) : ∀ c ∈ key, isWordChar c := List.all_eq_true.1 h.all

theorem key_reaches {done done' : List Token} {blocks blocks' : List Nat} {column : Nat}
    (enters : Enters column done blocks done' blocks') {key : List Char} (hkey : IsKey key) {rest : List Char}
    (hrest : ∀ line column, startsBlank (locate line column rest)) (line : Nat) :
    Reaches 2 (between done blocks true) (locate line column (key ++ ':' :: rest))
      (between (.value :: .scalar .plain (String.ofList key) :: .key :: done') blocks' false)
      (locate line (column + key.length + 1) rest) := by
  obtain ⟨kept, left, closes, inner, opens⟩ := enters.split
  exact (word_reaches closes hkey.word hkey.ne_nil hrest line).trans
    (colon_reaches inner opens hkey.short hrest line _)

/-! ### Values -/

theorem skip_spaces (s : Scanner) (line column n : Nat) (rest : List Char) :
    s.skip false (locate line column (List.replicate n ' ' ++ rest)) =
      s.skip false (locate line (column + n) rest) := by
  induction n generalizing column with
  | zero => rfl
  | succ n ih =>
    have behind : column + 1 + n = column + (n + 1) := by omega
    rw [List.replicate_succ, List.cons_append, locate_space, skip, ← behind, ← ih]
    simp [isBreak]

theorem skip_begins (s : Scanner) {rest : List Char} (hrest : BeginsWord rest) (line column : Nat) :
    s.skip false (locate line column rest) = (s, locate line column rest) := by
  cases rest with
  | nil => rfl
  | cons c rest =>
    have hc : isWordChar c := hrest c rfl
    rw [locate_cons (isBreak_of_isWordChar hc)]
    exact skip_word s hc line column _

theorem lineEnd_reaches (done : List Token) (blocks : List Nat) (keyAllowed : Bool) {rest : List Char}
    (hrest : BeginsWord rest) (n line column : Nat) :
    Reaches 0 (between done blocks keyAllowed)
      (locate line column (lineEnd n rest))
      (between done blocks true) (locate (line + 1) n rest) := by
  refine run_of_skip ?_ (skip_begins _ hrest _ _)
  rw [lineEnd, locate_newline, skip, if_pos (by rfl)]
  -- On a new line a key may begin, whatever was before it.
  show (between done blocks (keyAllowed || true)).skip false _ = _
  rw [Bool.or_true, skip_spaces, skip_begins _ hrest, Nat.zero_add]

/-- A scalar as it is written: as it is, or between quotes. -/
def written (quoted : Bool) (w : List Char) : List Char := if quoted then '\'' :: (w ++ ['\'']) else w

def styleOf (quoted : Bool) : Style := if quoted then .quoted else .plain

theorem plain_reaches {done : List Token} {b : Nat} {outer : List Nat} {w : List Char}
    (hw : ∀ c ∈ w, isWordChar c) (ne_nil : w ≠ []) {n column : Nat} (hn : n ≤ b) (hb : b ≤ column)
    {rest : List Char} (hrest : BeginsWord rest) (line : Nat) :
    Reaches 1 (between done (b :: outer) false)
      (locate line column (w ++ lineEnd n rest))
      (between (.scalar .plain (String.ofList w) :: done) (b :: outer) true) (locate (line + 1) n rest) := by
  obtain ⟨c, w', rfl⟩ := List.exists_cons_of_ne_nil ne_nil
  have hc : isWordChar c := hw c List.mem_cons_self
  have read : plainFrom false (between done (b :: outer) false).least []
      (locate line column (c :: w' ++ lineEnd n rest)) =
        some (c :: w', List.replicate n ' ' ++ ['\n'], locate (line + 1) n rest) := by
    have indented : n < (between done (b :: outer) false).least := Nat.lt_succ_of_le hn
    rw [plainFrom_word hw, plainFrom_lineEnd indented hrest, Option.map_some, List.append_nil]
  have stays : (between done (b :: outer) false).closeBlocks (column + 1) =
      between done (b :: outer) false :=
    closeBlocks_of_head fun b' hb' => by cases hb'; exact Nat.lt_succ_of_le hb
  have ends : (List.replicate n ' ' ++ ['\n']).any isBreak = true := by simp [isBreak]
  rw [List.cons_append, locate_cons (isBreak_of_isWordChar hc)] at read ⊢
  refine run_token (skip_word _ hc _ _ _) (forgetStale_between ..) ?_
  rw [stays, token_word rfl hc _ _ _, plain_value read, ends]

theorem quoted_reaches {done : List Token} {b : Nat} {outer : List Nat} {w : List Char}
    (hw : ∀ c ∈ w, isWordChar c) {column : Nat} (hb : b ≤ column)
    {rest : List Char} (hrest : rest.head? ≠ some '\'') (line : Nat) :
    Reaches 1 (between done (b :: outer) false) (locate line column ('\'' :: (w ++ '\'' :: rest)))
      (between (.scalar .quoted (String.ofList w) :: done) (b :: outer) false)
      (locate line (column + 1 + w.length + 1) rest) := by
  have stays : (between done (b :: outer) false).closeBlocks (column + 1) =
      between done (b :: outer) false :=
    closeBlocks_of_head fun b' hb' => by cases hb'; exact Nat.lt_succ_of_le hb
  rw [locate_cons rfl]
  refine run_token (skip_visible _ rfl (by simp) _) (forgetStale_between ..) ?_
  rw [stays]
  have quote : (between done (b :: outer) false).marked ⟨'\'', line, column⟩
      (locate line (column + 1) (w ++ '\'' :: rest)) =
        some (between (.scalar .quoted (String.ofList w) :: done) (b :: outer) false,
          locate line (column + 1 + w.length + 1) rest) := by
    have read := singleQuoted_word hw hrest line (column + 1)
    simp [marked, quoted, read]
    rfl
  simp [token, startsMarker_of_ne, quote]

theorem space_reaches (done : List Token) (blocks : List Nat) (keyAllowed : Bool) {c : Char} (hc : c ≠ '#')
    (blank : isGapOrBreak c = false) (line column : Nat) (rest : List Char) :
    Reaches 0 (between done blocks keyAllowed) (locate line column (' ' :: c :: rest))
      (between done blocks keyAllowed) (locate line (column + 1) (c :: rest)) := by
  have brk : isBreak c = false := (Bool.or_eq_false_iff.1 blank).2
  have here (after : List Spot) : (between done blocks keyAllowed).skip false (⟨c, line, column + 1⟩ :: after) =
      (between done blocks keyAllowed, ⟨c, line, column + 1⟩ :: after) := skip_visible _ blank hc after
  rw [locate_space, locate_cons brk]
  refine run_of_skip ?_ (here _)
  rw [skip, here]
  simp [isBreak]

/-- A value with the end of its line and the indentation of the next one, which stands no further to the right
than the keys of the mapping. -/
theorem value_reaches (quoted : Bool) {done : List Token} {b : Nat} {outer : List Nat} {w : List Char}
    (hw : ∀ c ∈ w, isWordChar c) (ne_nil : w ≠ []) {n column : Nat} (hn : n ≤ b) (hb : b ≤ column + 1)
    {rest : List Char} (hrest : BeginsWord rest) (line : Nat) :
    Reaches 1 (between done (b :: outer) false)
      (locate line column (' ' :: (written quoted w ++ lineEnd n rest)))
      (between (.scalar (styleOf quoted) (String.ofList w) :: done) (b :: outer) true)
      (locate (line + 1) n rest) := by
  cases quoted with
  | false =>
    obtain ⟨c, w', rfl⟩ := List.exists_cons_of_ne_nil ne_nil
    have hc : isWordChar c := hw c List.mem_cons_self
    exact (space_reaches done (b :: outer) false (ne_of_isWordChar hc (by decide))
      (isGapOrBreak_of_isWordChar hc) line column _).trans (plain_reaches hw ne_nil hn hb hrest line)
  | true =>
    have quote : '\'' ≠ '#' := by decide
    have behind : (lineEnd n rest).head? ≠ some '\'' := by simp [lineEnd]
    have text : written true w ++ lineEnd n rest =
        '\'' :: (w ++ '\'' :: lineEnd n rest) := by simp [written]
    rw [text]
    exact ((space_reaches done (b :: outer) false quote rfl line column _).trans
      (quoted_reaches hw hb behind line)).trans (lineEnd_reaches _ _ _ hrest n line _)

/-! ### Lines -/

/-- The key of a mapping on the lines below, which are indented by `n`. -/
def opening (key : List Char) (n : Nat) (below : List Char) : List Char := key ++ ':' :: lineEnd n below

/-- A key and a value in a line, with the lines below. -/
def entry (key : List Char) (quoted : Bool) (w : List Char) (n : Nat) (below : List Char) : List Char :=
  key ++ ':' :: ' ' :: (written quoted w ++ lineEnd n below)

theorem beginsWord_entry {key w below : List Char} {quoted : Bool} {n : Nat} (hkey : IsKey key) :
    BeginsWord (entry key quoted w n below) := by
  obtain ⟨c, key, rfl⟩ := List.exists_cons_of_ne_nil hkey.ne_nil
  rintro d ⟨⟩
  exact hkey.word c List.mem_cons_self

/-- The tokens of an entry behind others, from the last one on. -/
def entryTokens (key : List Char) (quoted : Bool) (w : List Char) (done : List Token) : List Token :=
  .scalar (styleOf quoted) (String.ofList w) :: .value :: .scalar .plain (String.ofList key) :: .key :: done

section

variable {done done' : List Token} {column n : Nat} {key below : List Char}

theorem opening_reaches (hkey : IsKey key) {blocks blocks' : List Nat}
    (enters : Enters column done blocks done' blocks') (hbelow : BeginsWord below) (line : Nat) :
    Reaches 2 (between done blocks true) (locate line column (opening key n below))
      (between (.value :: .scalar .plain (String.ofList key) :: .key :: done') blocks' true)
      (locate (line + 1) n below) :=
  (key_reaches enters hkey (fun _ _ => rfl) line).trans (lineEnd_reaches _ _ _ hbelow n line _)

theorem entry_reaches (hkey : IsKey key) (quoted : Bool) {w : List Char} (hw : ∀ c ∈ w, isWordChar c)
    (ne_nil : w ≠ []) {blocks outer : List Nat} (enters : Enters column done blocks done' (column :: outer))
    (hn : n ≤ column) (hbelow : BeginsWord below) (line : Nat) :
    Reaches 3 (between done blocks true) (locate line column (entry key quoted w n below))
      (between (entryTokens key quoted w done') (column :: outer) true) (locate (line + 1) n below) := by
  have right : column ≤ column + key.length + 1 + 1 := by omega
  exact (key_reaches enters hkey (fun _ _ => rfl) line).trans
    (value_reaches quoted hw ne_nil hn right hbelow line)

end

theorem run_end (done : List Token) (blocks : List Nat) (fuel : Nat) :
    run (fuel + 1) (between done blocks true) [] =
      some ((List.replicate blocks.length Token.blockEnd ++ done).reverse) := by
  have all : blocks.takeWhile (fun _ => true) = blocks := by
    induction blocks with
    | nil => rfl
    | cons b rest ih => rw [List.takeWhile_cons_of_pos rfl, ih]
  rw [run, skip]
  simp [closeBlocks, forgetKey, between, inFlow, all]

theorem tokens?_of_reaches {done : List Token} {blocks : List Nat} {spots : List Spot} {n : Nat}
    (h : Reaches n (between [] [] true) spots (between done blocks true) []) (enough : n ≤ spots.length) :
    tokens? spots = some ((List.replicate blocks.length Token.blockEnd ++ done).reverse) := by
  have fuel : spots.length + 1 = spots.length - n + 1 + n := by omega
  rw [tokens?, fuel, ← run_end done blocks (spots.length - n)]
  exact h _

end Scanner

end Yaml

end TemplateExpr
