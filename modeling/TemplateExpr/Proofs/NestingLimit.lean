import TemplateExpr.Proofs.Outcome
import TemplateExpr.Proofs.ReaderLoops
import TemplateExpr.Proofs.ScanFailure
import TemplateExpr.Render

/-!
# The limit on nesting

With more room a reader does what it does with less, unless the room ran out: the same tree, or the same
failure at the same place.  And the room cannot run out when there is more of it than there are tokens,
because each level of nesting takes a token.
-/

namespace TemplateExpr

/-- The outcome with more room beside the outcome with less: the same, unless the room ran out. -/
def Deepens (short long : Except Stop α) : Prop :=
  long = short ∨ ∃ ts, short = .error ⟨.tooDeep, ts⟩

namespace Deepens

theorem refl (outcome : Except Stop α) : Deepens outcome outcome := .inl rfl

theorem bind {short long : Except Stop α} {next next' : α → Except Stop β} (h : Deepens short long)
    (hn : ∀ a, Deepens (next a) (next' a)) : Deepens (short >>= next) (long >>= next') := by
  rcases h with rfl | ⟨ts, rfl⟩
  · cases long with
    | error stop => exact refl _
    | ok a => exact hn a
  · exact .inr ⟨ts, rfl⟩

end Deepens

namespace Reader

/-! ### More room -/

/-- A reader does whatever another one does, unless that one runs out of room. -/
def Extends (r r' : Reader α) : Prop := ∀ ts, Deepens (r ts) (r' ts)

variable {operand operand' inner inner' : Reader Expr} {level : Level}

theorem chainFrom_extends (h : Extends operand operand') (bound : List Token) (left : Expr)
    (ts : List Token) :
    Deepens (chainFrom level operand bound left ts) (chainFrom level operand' bound left ts) := by
  induction bound generalizing left ts with
  | nil => exact .refl _
  | cons token bound ih =>
    cases hop : level.operator? ts with
    | none =>
      rw [chainFrom_none hop, chainFrom_none hop]
      exact .refl _
    | some found =>
      rw [chainFrom_some hop, chainFrom_some hop]
      exact (h found.2).bind fun read => ih _ _

theorem chain_extends (h : Extends operand operand') :
    Extends (chain level operand) (chain level operand') := by
  intro ts
  rw [chain_apply, chain_apply]
  exact (h ts).bind fun read => chainFrom_extends h _ _ _

theorem infixes_extends (h : Extends operand operand') :
    Extends (infixes operand) (infixes operand') := by
  have general : ∀ levels : List Level, Extends (levels.foldr chain operand) (levels.foldr chain operand') := by
    intro levels
    induction levels with
    | nil => exact h
    | cons level levels ih => exact chain_extends ih
  exact general levels

theorem conditional_extends {test test' branch branch' : Reader Expr} (ht : Extends test test')
    (hb : Extends branch branch') : Extends (conditional test branch) (conditional test' branch') := by
  intro ts
  refine (ht ts).bind fun ⟨first, rest⟩ => ?_
  dsimp only
  split
  · refine (hb _).bind fun ⟨consequent, rest⟩ => ?_
    refine (Deepens.refl _).bind fun ⟨_, rest⟩ => ?_
    exact (hb rest).bind fun ⟨alternate, rest⟩ => .refl _
  · exact .refl _

theorem primary_extends (h : Extends inner inner') : Extends (primary inner) (primary inner') := by
  intro ts
  unfold primary
  split
  · exact .refl _
  · exact .refl _
  · exact .refl _
  · exact (h _).bind fun ⟨e, rest⟩ => .refl _
  · exact .refl _

theorem argumentsFrom_extends (h : Extends inner inner') (bound : List Token) (done : List Expr)
    (ts : List Token) :
    Deepens (argumentsFrom inner bound done ts) (argumentsFrom inner' bound done ts) := by
  induction bound generalizing done ts with
  | nil => exact .refl _
  | cons token bound ih =>
    by_cases hclose : firstKind ts = some (.symbol .rightParen)
    · obtain ⟨p, rest, rfl⟩ := firstKind_eq_some hclose
      exact .refl _
    · rw [argumentsFrom_round hclose, argumentsFrom_round hclose]
      refine (h ts).bind fun read => ?_
      unfold argumentsBehind
      split
      · exact ih _ _
      · exact .refl _

theorem postfixFrom_extends (h : Extends inner inner') (bound : List Token) (e : Expr)
    (ts : List Token) :
    Deepens (postfixFrom inner bound e ts) (postfixFrom inner' bound e ts) := by
  induction bound generalizing e ts with
  | nil => exact .refl _
  | cons token bound ih =>
    unfold postfixFrom
    split
    · exact ih _ _
    · exact .refl _
    · refine (h _).bind fun ⟨key, rest⟩ => ?_
      exact (Deepens.refl _).bind fun ⟨_, rest⟩ => ih _ _
    · refine (argumentsFrom_extends h _ _ _).bind fun ⟨arguments, rest⟩ => ?_
      exact ih _ _
    · exact .refl _

theorem unary_extends (ho : Extends operand operand') (hi : Extends inner inner') :
    Extends (unary operand inner) (unary operand' inner') := by
  intro ts
  unfold unary
  split
  · exact (ho ts.tail).bind fun ⟨e, rest⟩ => .refl _
  · exact (primary_extends hi ts).bind fun ⟨e, rest⟩ => postfixFrom_extends hi rest e rest

theorem nested_extends {n m : Nat} (h : n ≤ m) :
    Extends (nestedExpr n) (nestedExpr m) ∧ Extends (nestedUnary n) (nestedUnary m) := by
  induction n generalizing m with
  | zero => exact ⟨fun ts => .inr ⟨ts, rfl⟩, fun ts => .inr ⟨ts, rfl⟩⟩
  | succ n ih =>
    obtain ⟨m, rfl⟩ := Nat.exists_eq_add_of_lt h
    obtain ⟨hexpr, hoperand⟩ := ih (Nat.le_add_right n m)
    have hunary := unary_extends hoperand hexpr
    exact ⟨conditional_extends (infixes_extends hunary) hexpr, hunary⟩

theorem program_extends {n m : Nat} (h : n ≤ m) (ts : List Token) :
    Deepens (program n ts) (program m ts) := by
  refine Deepens.bind ?_ fun ⟨e, rest⟩ => .refl _
  unfold optionalExpr
  split
  · exact .refl _
  · exact .refl _
  · exact (nested_extends h).1 ts

/-! ### Enough room -/

/-- An outcome short of the limit, which leaves at most so many tokens. -/
def Settles (size : Nat) : Except Stop (α × List Token) → Prop
  | .ok (_, rest) => rest.length ≤ size
  | .error stop => stop.cause ≠ .tooDeep

theorem Settles.bind {size size' : Nat} {outcome : Except Stop (α × List Token)}
    {next : α × List Token → Except Stop (β × List Token)} (h : Settles size outcome)
    (hn : ∀ a rest, rest.length ≤ size → Settles size' (next (a, rest))) :
    Settles size' (outcome >>= next) := by
  cases outcome with
  | error stop => exact h
  | ok read => exact hn read.1 read.2 h

theorem Settles.mono {size size' : Nat} {outcome : Except Stop (α × List Token)}
    (h : Settles size outcome) (hle : size ≤ size') : Settles size' outcome := by
  cases outcome with
  | error stop => exact h
  | ok read => exact Nat.le_trans h hle

theorem unexpected_settles (size : Nat) (ts : List Token) :
    Settles size (unexpected ts : Except Stop (α × List Token)) :=
  SyntaxCause.noConfusion

theorem expect_settles (symbol : Symbol) (ts : List Token) :
    Settles ts.length (expect symbol ts) := by
  unfold expect
  split
  · split
    · exact Nat.le_succ _
    · exact SyntaxCause.noConfusion
  · exact SyntaxCause.noConfusion

/-- A reader never meets the limit on fewer tokens than it has room for levels. -/
def Roomy (room : Nat) (r : Reader α) : Prop := ∀ ts, ts.length < room → Settles ts.length (r ts)

variable {room : Nat}

theorem chainFrom_roomy (h : Roomy room operand) (bound : List Token) (left : Expr) {ts : List Token}
    (hts : ts.length < room) : Settles ts.length (chainFrom level operand bound left ts) := by
  induction bound generalizing left ts with
  | nil => exact Nat.le_refl _
  | cons token bound ih =>
    cases hop : level.operator? ts with
    | none =>
      rw [chainFrom_none hop]
      exact Nat.le_refl _
    | some found =>
      obtain ⟨symbol, position, rfl⟩ := operator?_front hop
      rw [chainFrom_some hop]
      rw [List.length_cons] at hts ⊢
      refine (h found.2 (by omega)).bind fun right rest hrest => ?_
      dsimp only
      exact (ih (found.1 left right) (by omega)).mono (by omega)

theorem chain_roomy (h : Roomy room operand) : Roomy room (chain level operand) := by
  intro ts hts
  rw [chain_apply]
  refine (h ts hts).bind fun left rest hrest => ?_
  dsimp only
  exact (chainFrom_roomy h rest left (by omega)).mono hrest

theorem infixes_roomy (h : Roomy room operand) : Roomy room (infixes operand) :=
  infixes_induction h fun _ _ => chain_roomy

theorem conditional_roomy {test branch : Reader Expr} (ht : Roomy (room + 1) test)
    (hb : Roomy room branch) : Roomy (room + 1) (conditional test branch) := by
  intro ts hts
  refine (ht ts hts).bind fun first rest hrest => ?_
  dsimp only
  split
  · rename_i behind
    rw [List.length_cons] at hrest
    refine (hb behind (by omega)).bind fun consequent rest₁ h₁ => ?_
    refine (expect_settles .colon rest₁).bind fun _ rest₂ h₂ => ?_
    refine (hb rest₂ (by omega)).bind fun alternate rest₃ h₃ => ?_
    show rest₃.length ≤ ts.length
    omega
  · exact hrest

theorem primary_roomy (h : Roomy room inner) : Roomy (room + 1) (primary inner) := by
  intro ts hts
  unfold primary
  split
  · exact Nat.le_succ _
  · exact Nat.le_succ _
  · exact Nat.le_succ _
  · rename_i behind
    rw [List.length_cons] at hts ⊢
    refine (h behind (by omega)).bind fun e rest₁ h₁ => ?_
    refine (expect_settles .rightParen rest₁).bind fun _ rest₂ h₂ => ?_
    show rest₂.length ≤ behind.length + 1
    omega
  · exact unexpected_settles _ _

theorem argumentsFrom_roomy (h : Roomy room inner) (bound : List Token) (done : List Expr)
    {ts : List Token} (hts : ts.length < room) :
    Settles ts.length (argumentsFrom inner bound done ts) := by
  induction bound generalizing done ts with
  | nil => exact unexpected_settles _ _
  | cons token bound ih =>
    by_cases hclose : firstKind ts = some (.symbol .rightParen)
    · obtain ⟨p, rest, rfl⟩ := firstKind_eq_some hclose
      exact Nat.le_succ _
    · rw [argumentsFrom_round hclose]
      refine (h ts hts).bind fun e rest hrest => ?_
      simp only [argumentsBehind]
      split
      · rw [List.length_cons] at hrest
        exact (ih _ (by omega)).mono (by omega)
      · refine (expect_settles .rightParen rest).bind fun _ rest₁ h₁ => ?_
        exact Nat.le_trans h₁ hrest

theorem postfixFrom_roomy (h : Roomy room inner) (bound : List Token) (e : Expr) {ts : List Token}
    (hts : ts.length < room + 1) : Settles ts.length (postfixFrom inner bound e ts) := by
  induction bound generalizing e ts with
  | nil => exact Nat.le_refl _
  | cons token bound ih =>
    unfold postfixFrom
    split
    · simp only [List.length_cons] at hts ⊢
      exact (ih _ (by omega)).mono (by omega)
    · exact unexpected_settles _ _
    · rename_i behind
      rw [List.length_cons] at hts ⊢
      refine (h behind (by omega)).bind fun key rest₁ h₁ => ?_
      refine (expect_settles .rightBracket rest₁).bind fun _ rest₂ h₂ => ?_
      exact (ih _ (by omega)).mono (by omega)
    · rename_i behind
      rw [List.length_cons] at hts
      rw [List.length_cons]
      refine (argumentsFrom_roomy h _ _ (by omega)).bind fun arguments rest₁ h₁ => ?_
      exact (ih _ (by omega)).mono (by omega)
    · exact Nat.le_refl _

theorem unary_roomy (ho : Roomy room operand) (hi : Roomy room inner) :
    Roomy (room + 1) (unary operand inner) := by
  intro ts hts
  unfold unary
  split
  · rename_i op hop
    cases ts with
    | nil => cases hop
    | cons token ts =>
      rw [List.length_cons] at hts ⊢
      refine (ho ts (by omega)).bind fun e rest hrest => ?_
      show rest.length ≤ ts.length + 1
      omega
  · refine (primary_roomy hi ts hts).bind fun e rest hrest => ?_
    exact (postfixFrom_roomy hi rest e (by omega)).mono hrest

theorem nested_roomy (room : Nat) : Roomy room (nestedExpr room) ∧ Roomy room (nestedUnary room) := by
  induction room with
  | zero => exact ⟨fun ts hts => absurd hts (Nat.not_lt_zero _), fun ts hts => absurd hts (Nat.not_lt_zero _)⟩
  | succ room ih =>
    have hunary := unary_roomy ih.2 ih.1
    exact ⟨conditional_roomy (infixes_roomy hunary) ih.1, hunary⟩

theorem program_roomy {limit : Nat} {ts : List Token} (h : ts.length < limit) :
    ErrorsIn (fun stop => stop.cause ≠ .tooDeep) (program limit ts) := by
  have hread : Settles ts.length (optionalExpr limit ts) := by
    unfold optionalExpr
    split
    · exact Nat.le_refl _
    · exact Nat.le_refl _
    · exact (nested_roomy limit).1 ts h
  intro stop hstop
  unfold program at hstop
  cases hresult : optionalExpr limit ts with
  | error stop' =>
    rw [hresult] at hread hstop
    cases hstop
    exact hread
  | ok read =>
    rw [hresult, ok_bind] at hstop
    dsimp only at hstop
    unfold ending at hstop
    split at hstop
    · cases hstop
    · cases hstop
    · cases hstop
      exact SyntaxCause.noConfusion
    · cases hstop
      exact SyntaxCause.noConfusion

end Reader

/-! ### Whole sources -/

/-- The failure of the limit, as its message tells. -/
def SyntaxError.IsNesting (error : SyntaxError) : Prop :=
  error.cause.message = "expression nested too deeply"

theorem append_ne_of_take {lead rest text : String} (hlead : 4 ≤ lead.toList.length)
    (h : lead.toList.take 4 ≠ text.toList.take 4) : lead ++ rest ≠ text := by
  rintro rfl
  rw [String.toList_append, List.take_append_of_le_length hlead] at h
  exact h rfl

-- The messages with a part that varies are told apart by their first four letters.
theorem SyntaxCause.message_eq_iff {cause : SyntaxCause} :
    cause.message = "expression nested too deeply" ↔ cause = .tooDeep := by
  constructor
  · intro h
    cases cause with
    | tooDeep => rfl
    | strayCharacter c =>
      have hlead : "invalid or unexpected token '" ++ (String.singleton c ++ "'") = _ :=
        String.append_assoc.symm.trans h
      exact absurd hlead (append_ne_of_take (by decide) (by decide))
    | badNumeral => exact absurd h (by decide)
    | nameAfterNumeral => exact absurd h (by decide)
    | unterminatedString => exact absurd h (by decide)
    | badHexEscape => exact absurd h (by decide)
    | badUnicodeEscape => exact absurd h (by decide)
    | unexpected found => exact absurd h (append_ne_of_take (by decide) (by decide))
    | expected symbol found =>
      have hlead : "expected '" ++ (symbol.text ++ ("', found " ++ describeFound found)) = _ :=
        String.append_assoc.symm.trans (String.append_assoc.symm.trans h)
      exact absurd hlead (append_ne_of_take (by decide) (by decide))
  · rintro rfl
    rfl

theorem SyntaxError.isNesting_iff {error : SyntaxError} : error.IsNesting ↔ error.cause = .tooDeep :=
  SyntaxCause.message_eq_iff

theorem not_isNesting_of_isLexical {error : SyntaxError} (h : error.cause.IsLexical) : ¬error.IsNesting := by
  rw [SyntaxError.isNesting_iff]
  intro hdeep
  rw [hdeep] at h
  exact h

theorem parseWithin_of_tokens {limit : Nat} {source : String} {ts : List Token}
    (h : tokenize source = .ok ts) :
    Expr.parseWithin limit source =
      (Reader.program limit ts).mapError (·.toSyntaxError source.utf8ByteSize) := by
  rw [Expr.parseWithin, h, ok_bind]
  cases Reader.program limit ts <;> rfl

theorem parseWithin_mono {source : String} {n m : Nat} (h : n ≤ m)
    (hroom : ErrorsIn (fun error => ¬error.IsNesting) (Expr.parseWithin n source)) :
    Expr.parseWithin m source = Expr.parseWithin n source := by
  cases hts : tokenize source with
  | error error =>
    rw [Expr.parseWithin, Expr.parseWithin, hts]
    rfl
  | ok ts =>
    rw [parseWithin_of_tokens hts] at hroom
    rw [parseWithin_of_tokens hts, parseWithin_of_tokens hts]
    rcases Reader.program_extends h ts with hsame | ⟨stuck, hstuck⟩
    · rw [hsame]
    · rw [hstuck] at hroom
      exact absurd (SyntaxError.isNesting_iff.2 rfl) (hroom _ rfl)

theorem parseWithin_roomy (source : String) : ∃ limit, ∀ n, limit ≤ n →
    ErrorsIn (fun error => ¬error.IsNesting) (Expr.parseWithin n source) := by
  cases hts : tokenize source with
  | error fault =>
    refine ⟨0, fun n _ error herror => ?_⟩
    rw [Expr.parseWithin, hts] at herror
    cases herror
    exact not_isNesting_of_isLexical (tokenize_errors source fault hts)
  | ok ts =>
    refine ⟨ts.length + 1, fun n hn error herror => ?_⟩
    have hread := Reader.program_roomy hn
    rw [parseWithin_of_tokens hts] at herror
    cases hresult : Reader.program n ts with
    | ok e =>
      rw [hresult] at herror
      cases herror
    | error stop =>
      rw [hresult] at herror
      cases herror
      exact fun hnesting => hread stop hresult (SyntaxError.isNesting_iff.1 hnesting)

/-- A larger limit on nesting changes nothing but the failure of the limit itself, neither in what is parsed
nor in what is rendered, and from some limit on no source fails that way. -/
theorem nesting_limit_adds_one_error :
    (∀ source n m, n ≤ m → (∀ error, Expr.parseWithin n source = .error error → ¬error.IsNesting) →
      Expr.parseWithin m source = Expr.parseWithin n source) ∧
    (∀ source, ∃ limit, ∀ n, limit ≤ n →
      ∀ error, Expr.parseWithin n source = .error error → ¬error.IsNesting) ∧
    ∀ (config config' : Config) env source, config.bindings = config'.bindings →
      config.maxNesting ≤ config'.maxNesting →
      (∀ error, config.render env source = .error (.malformed error) → ¬error.IsNesting) →
        config'.render env source = config.render env source := by
  refine ⟨fun source n m => parseWithin_mono, parseWithin_roomy, ?_⟩
  rintro ⟨bindings, n⟩ ⟨bindings', m⟩ env source rfl hle hne
  have hroom : ErrorsIn (fun error => ¬error.IsNesting) (Expr.parseWithin n source) := by
    intro error herror
    refine hne error ?_
    rw [Config.render, Config.parse, herror]
    rfl
  rw [Config.render, Config.render, Config.parse, Config.parse, parseWithin_mono hle hroom]
  rfl

theorem nesting_limit_adds_one_error_unclosed :
    let closing : SyntaxError := ⟨.expected .rightParen none, 2⟩
    let narrow : Config := ⟨Config.standard.bindings, 2⟩
    Expr.parseWithin 2 "(x" = .error closing ∧ Expr.parseWithin 7 "(x" = .error closing ∧
      narrow.render .null "(x" = .error (.malformed closing) ∧
      Config.standard.render .null "(x" = .error (.malformed closing) ∧ ¬closing.IsNesting := by
  intro closing narrow
  have htokens : tokenize "(x" = .ok [⟨.symbol .leftParen, 0⟩, ⟨.name "x", 1⟩] := by
    have hopen : readToken '(' ['x'] = .ok (.symbol .leftParen, 1) := rfl
    have hname : readToken 'x' [] = .ok (.name "x", 1) := rfl
    show scan 0 [] ['(', 'x'] = _
    rw [scan, if_neg (by decide), hopen]
    show scan 1 [⟨.symbol .leftParen, 0⟩] ['x'] = _
    rw [scan, if_neg (by decide), hname]
    exact scan.eq_1 _ _
  have hread : Expr.parseWithin 2 "(x" = .error closing := by
    rw [parseWithin_of_tokens htokens]
    rfl
  have hrender : narrow.render .null "(x" = .error (.malformed closing) := by
    rw [Config.render, Config.parse, hread]
    rfl
  have hclosing : ¬closing.IsNesting := by
    rw [SyntaxError.isNesting_iff]
    exact SyntaxCause.noConfusion
  obtain ⟨hparse, -, hrenders⟩ := nesting_limit_adds_one_error
  have hmore := hparse "(x" 2 7 (by decide) fun error herror => by
    rw [hread] at herror
    cases herror
    exact hclosing
  have hsame := hrenders narrow Config.standard .null "(x" rfl (by decide) fun error herror => by
    rw [hrender] at herror
    cases herror
    exact hclosing
  exact ⟨hread, hmore.trans hread, hrender, hsame.trans hrender, hclosing⟩

end TemplateExpr
