import TemplateExpr.Proofs.Completeness
import TemplateExpr.Proofs.Lexed
import TemplateExpr.Proofs.NestingLimit
import TemplateExpr.Proofs.Soundness

/-!
# Layout between tokens

Layout may be put in front of every token and at the end of a source: the tokens stay the same, only their
places move.  As the grammar looks at the kinds of tokens alone, the source stands for the same tree as
before.
-/

namespace TemplateExpr

/-! ### Layout in front of a token -/

/-- A token whose place has moved by a size if it was not in front of a certain place. -/
def Token.movedFrom (start size : Nat) (t : Token) : Token :=
  if t.position < start then t else ⟨t.kind, t.position + size⟩

@[simp] theorem Token.kind_movedFrom (start size : Nat) (t : Token) : (t.movedFrom start size).kind = t.kind := by
  unfold movedFrom
  split <;> rfl

@[simp] theorem Token.position_movedFrom (start size : Nat) (t : Token) :
    (t.movedFrom start size).position = if t.position < start then t.position else t.position + size := by
  unfold movedFrom
  split <;> rfl

namespace Lexed

variable {p stop : Nat} {text : List Char} {ts : List Token}

theorem moved (h : Lexed p text ts) (size : Nat) {start : Nat} (hstart : start ≤ p) :
    Lexed (p + size) text (ts.map (·.movedFrom start size)) := by
  induction h with
  | done => exact .done
  | layout hc _ ih =>
    refine .layout hc ?_
    rw [Nat.add_right_comm]
    exact ih (by omega)
  | @token p c cs tail kind ts hc read _ ih =>
    have first : Token.movedFrom start size ⟨kind, p⟩ = ⟨kind, p + size⟩ := if_neg (Nat.not_lt.2 hstart)
    rw [List.map_cons, first]
    refine .token hc read ?_
    rw [Nat.add_right_comm]
    exact ih (by omega)

-- The induction follows the tokens up to the one that is moved.  What is put in front of that one is layout, so
-- the tokens before it are found as they were.
theorem insert (h : Lexed p text ts) (hstop : stop = p + utf8Length text) {start : Nat}
    (hstart : start ∈ startsTo stop ts) :
    ∃ before after, text = before ++ after ∧ start = p + utf8Length before ∧ ∀ blank, isLayout blank →
      Lexed p (before ++ blank :: after) (ts.map (·.movedFrom start blank.utf8Size)) := by
  induction h with
  | @done p =>
    rw [List.mem_singleton.1 hstart, hstop]
    exact ⟨[], [], rfl, rfl, fun blank hblank => .layout hblank .done⟩
  | @layout p c rest ts hc _ ih =>
    rw [utf8Length] at hstop
    obtain ⟨before, after, rfl, rfl, lexed⟩ := ih (by omega) hstart
    refine ⟨c :: before, after, rfl, by rw [utf8Length, Nat.add_assoc], fun blank hblank => .layout hc ?_⟩
    exact lexed blank hblank
  | @token p c cs tail kind ts hc read lexed ih =>
    obtain rfl | hstart := List.mem_cons.1 hstart
    · exact ⟨[], c :: (cs ++ tail), rfl, rfl, fun blank hblank =>
        .layout hblank ((Lexed.token hc read lexed).moved _ (Nat.le_refl _))⟩
    · have hstop' : stop = p + utf8Length (c :: cs) + utf8Length tail := by
        rw [hstop, ← List.cons_append, utf8Length_append, Nat.add_assoc]
      obtain ⟨before, after, rfl, hplace, lexed'⟩ := ih hstop' hstart
      have behind : p < start := by
        have room : 0 < c.utf8Size := c.utf8Size_pos
        rw [hplace, utf8Length]
        omega
      obtain ⟨cs', tail', same, length, found⟩ := readToken_found read
      obtain ⟨rfl, rfl⟩ := List.append_inj same (by omega)
      refine ⟨c :: (cs ++ before), after, by simp, ?_, fun blank hblank => ?_⟩
      · rw [hplace, ← List.cons_append, utf8Length_append, Nat.add_assoc]
      · have first : Token.movedFrom start blank.utf8Size ⟨kind, p⟩ = ⟨kind, p⟩ := if_pos behind
        rw [List.map_cons, first, List.cons_append, List.append_assoc]
        refine .token hc (found _ ?_) (lexed' blank hblank)
        exact (StandsFor.layout hblank after after).append before

end Lexed

/-! ### Trees from kinds -/

theorem kinds_behind {w v : List Token} {t : Token} (h : w.map Token.kind = (t :: v).map Token.kind) :
    ∃ p v', w = ⟨t.kind, p⟩ :: v' ∧ v'.map Token.kind = v.map Token.kind := by
  obtain ⟨⟨kind, p⟩, v', rfl, hkind, hv⟩ := List.map_eq_cons_iff.1 h
  exact ⟨p, v', by rw [← hkind], hv⟩

/-- Tokens of the same kinds as others are divided as they are. -/
theorem kinds_around {w u v : List Token} {t : Token}
    (h : w.map Token.kind = (u ++ t :: v).map Token.kind) :
    ∃ u' p v', w = u' ++ ⟨t.kind, p⟩ :: v' ∧ u'.map Token.kind = u.map Token.kind ∧
      v'.map Token.kind = v.map Token.kind := by
  rw [List.map_append] at h
  obtain ⟨u', rest, rfl, hu, hrest⟩ := List.map_eq_append_iff.1 h
  obtain ⟨p, v', rfl, hv⟩ := kinds_behind hrest
  exact ⟨u', p, v', rfl, hu, hv⟩

theorem kinds_single {w : List Token} {t : Token} (h : w.map Token.kind = [t].map Token.kind) :
    ∃ p, w = [⟨t.kind, p⟩] := by
  obtain ⟨p, v, rfl, hv⟩ := kinds_behind h
  exact ⟨p, by rw [List.map_eq_nil_iff.1 hv]⟩

theorem kinds_before {w u : List Token} {t : Token} (h : w.map Token.kind = (u ++ [t]).map Token.kind) :
    ∃ u' p, w = u' ++ [⟨t.kind, p⟩] ∧ u'.map Token.kind = u.map Token.kind := by
  obtain ⟨u', p, v, rfl, hu, hv⟩ := kinds_around h
  exact ⟨u', p, by rw [List.map_eq_nil_iff.1 hv], hu⟩

mutual

/-- The places of tokens mean nothing to the grammar. -/
theorem Derives.of_kinds {c : Category} {n : Nat} {w w' : List Token} {e : Expr} :
    Derives c n w e → w'.map Token.kind = w.map Token.kind → Derives c n w' e
  | .plain h, hw => .plain (h.of_kinds hw)
  | .conditional h₁ h₂ h₃, hw => by
    obtain ⟨w₁, p, rest, rfl, hw₁, hrest⟩ := kinds_around hw
    obtain ⟨w₂, q, w₃, rfl, hw₂, hw₃⟩ := kinds_around hrest
    exact .conditional (h₁.of_kinds hw₁) (h₂.of_kinds hw₂) (h₃.of_kinds hw₃)
  | .tighter hc h, hw => .tighter hc (h.of_kinds hw)
  | .operator hc hop hl hr, hw => by
    obtain ⟨w₁, p, w₂, rfl, hw₁, hw₂⟩ := kinds_around hw
    exact .operator hc hop (hl.of_kinds hw₁) (hr.of_kinds hw₂)
  | .unary hop h, hw => by
    obtain ⟨p, w₁, rfl, hw₁⟩ := kinds_behind hw
    exact .unary hop (h.of_kinds hw₁)
  | .member h, hw => by
    obtain ⟨w₁, p, rest, rfl, hw₁, hrest⟩ := kinds_around hw
    obtain ⟨q, rfl⟩ := kinds_single hrest
    exact .member (h.of_kinds hw₁)
  | .index h hkey, hw => by
    obtain ⟨w₁, p, rest, rfl, hw₁, hrest⟩ := kinds_around hw
    obtain ⟨w₂, q, rfl, hw₂⟩ := kinds_before hrest
    exact .index (h.of_kinds hw₁) (hkey.of_kinds hw₂)
  | .callEmpty h, hw => by
    obtain ⟨w₁, p, rest, rfl, hw₁, hrest⟩ := kinds_around hw
    obtain ⟨q, rfl⟩ := kinds_single hrest
    exact .callEmpty (h.of_kinds hw₁)
  | .call h harguments, hw => by
    obtain ⟨w₁, p, rest, rfl, hw₁, hrest⟩ := kinds_around hw
    obtain ⟨w₂, q, rfl, hw₂⟩ := kinds_before hrest
    exact .call (h.of_kinds hw₁) (harguments.of_kinds hw₂)
  | .number, hw => by
    obtain ⟨p, rfl⟩ := kinds_single hw
    exact .number
  | .string, hw => by
    obtain ⟨p, rfl⟩ := kinds_single hw
    exact .string
  | .word h, hw => by
    obtain ⟨p, rfl⟩ := kinds_single hw
    exact .word h
  | .identifier h h', hw => by
    obtain ⟨p, rfl⟩ := kinds_single hw
    exact .identifier h h'
  | .parentheses h, hw => by
    obtain ⟨p, rest, rfl, hrest⟩ := kinds_behind hw
    obtain ⟨w₁, q, rfl, hw₁⟩ := kinds_before hrest
    exact .parentheses (h.of_kinds hw₁)

theorem DerivesArguments.of_kinds {n : Nat} {w w' : List Token} {es : List Expr} :
    DerivesArguments n w es → w'.map Token.kind = w.map Token.kind → DerivesArguments n w' es
  | .last h, hw => .last (h.of_kinds hw)
  | .lastComma h, hw => by
    obtain ⟨w₁, p, rfl, hw₁⟩ := kinds_before hw
    exact .lastComma (h.of_kinds hw₁)
  | .more h h', hw => by
    obtain ⟨w₁, p, w₂, rfl, hw₁, hw₂⟩ := kinds_around hw
    exact .more (h.of_kinds hw₁) (h'.of_kinds hw₂)

end

theorem program_of_kinds {limit : Nat} {ts ts' : List Token} {e : Expr}
    (hkinds : ts'.map Token.kind = ts.map Token.kind) (h : Reader.program limit ts = .ok e) :
    Reader.program limit ts' = .ok e := by
  obtain ⟨n, hn, derived⟩ := Reader.program_sound h
  have derived' : DerivesProgram n ts' e := by
    cases derived with
    | empty =>
      rw [List.map_eq_nil_iff.1 hkinds]
      exact .empty
    | emptyClosed =>
      obtain ⟨p, rfl⟩ := kinds_single hkinds
      exact .emptyClosed
    | expr derived => exact .expr (derived.of_kinds hkinds)
    | exprClosed derived =>
      obtain ⟨w, p, rfl, hw⟩ := kinds_before hkinds
      exact .exprClosed (derived.of_kinds hw)
  exact Reader.program_complete derived' hn

/-! ### Layout in a source -/

/-- The kinds of tokens and the places where they begin; behind them the end, which is of no kind. -/
def marksTo (stop : Nat) (ts : List Token) : List (Option TokenKind × Nat) :=
  ts.map (fun t => (some t.kind, t.position)) ++ [(none, stop)]

/-- The tokens of a source and its end. -/
def marks (source : String) : Except SyntaxError (List (Option TokenKind × Nat)) :=
  (tokenize source).map (marksTo source.utf8ByteSize)

theorem marksTo_places (stop : Nat) (ts : List Token) : (marksTo stop ts).map Prod.snd = startsTo stop ts := by
  rw [marksTo, List.map_append, List.map_map]
  rfl

theorem source_split {source : String} {before after : List Char} (text : source.toList = before ++ after) :
    source = String.ofList before ++ String.ofList after ∧
      (String.ofList before).utf8ByteSize = utf8Length before := by
  constructor
  · rw [← String.toList_inj, String.toList_append, String.toList_ofList, String.toList_ofList, text]
  · rw [← utf8Length_toList, String.toList_ofList]

theorem tokenize_insert {source : String} {ts : List Token} (h : tokenize source = .ok ts) {start : Nat}
    (hstart : start ∈ startsTo source.utf8ByteSize ts) :
    ∃ before after, source = before ++ after ∧ start = before.utf8ByteSize ∧ ∀ blank, isLayout blank →
      tokenize (before ++ String.singleton blank ++ after) =
        .ok (ts.map (·.movedFrom start blank.utf8Size)) := by
  have stop : source.utf8ByteSize = 0 + utf8Length source.toList := by rw [Nat.zero_add, utf8Length_toList]
  obtain ⟨before, after, text, place, lexed⟩ := (tokenize_eq_ok_iff.1 h).insert stop hstart
  obtain ⟨split, size⟩ := source_split text
  refine ⟨_, _, split, by rw [place, size, Nat.zero_add], fun blank hblank => tokenize_eq_ok_iff.2 ?_⟩
  have spaced : (String.ofList before ++ String.singleton blank ++ String.ofList after).toList =
      before ++ blank :: after := by simp
  rw [spaced]
  exact lexed blank hblank

theorem marks_insert {source spaced : String} {ts : List Token} {start size : Nat}
    (h : tokenize spaced = .ok (ts.map (·.movedFrom start size)))
    (hsize : spaced.utf8ByteSize = source.utf8ByteSize + size) (hstart : start ≤ source.utf8ByteSize) :
    marks spaced = .ok ((marksTo source.utf8ByteSize ts).map fun mark =>
      (mark.1, if mark.2 < start then mark.2 else mark.2 + size)) := by
  rw [marks, h, hsize]
  simp only [Except.map, marksTo, List.map_append, List.map_map, List.map_cons, List.map_nil,
    Function.comp_def, Token.kind_movedFrom, Token.position_movedFrom, if_neg (Nat.not_lt.2 hstart)]

/-- The tokens of a source and its end stand one behind the other on boundaries of characters, with nothing
behind the end; and a character of layout in front of any of them moves this one and what is behind it by the
size of the character, and leaves the tokens what they are and the tree what it is. -/
theorem layout_between_tokens {source : String} {ms : List (Option TokenKind × Nat)}
    (h : marks source = .ok ms) :
    (ms.map Prod.snd).Pairwise (· < ·) ∧
    (∃ front, ms = front ++ [(none, source.utf8ByteSize)] ∧ ∀ mark ∈ front, mark.1 ≠ none) ∧
    ∀ place ∈ ms.map Prod.snd, ∃ before after, source = before ++ after ∧ place = before.utf8ByteSize ∧
      ∀ blank, isLayout blank →
        marks (before ++ String.singleton blank ++ after) = .ok (ms.map fun mark =>
          (mark.1, if mark.2 < place then mark.2 else mark.2 + blank.utf8Size)) ∧
        ∀ limit e, Expr.parseWithin limit (before ++ String.singleton blank ++ after) = .ok e ↔
          Expr.parseWithin limit source = .ok e := by
  obtain ⟨ts, tokens, rfl⟩ := map_ok h
  have lexed := tokenize_eq_ok_iff.1 tokens
  have stop : source.utf8ByteSize = 0 + utf8Length source.toList := by rw [Nat.zero_add, utf8Length_toList]
  rw [marksTo_places]
  refine ⟨lexed.starts_increase stop, ⟨_, rfl, fun mark hmark => ?_⟩, fun place hplace => ?_⟩
  · obtain ⟨t, _, rfl⟩ := List.mem_map.1 hmark
    exact Option.some_ne_none _
  · obtain ⟨before, after, rfl, rfl, spaced⟩ := tokenize_insert tokens hplace
    refine ⟨before, after, rfl, rfl, fun blank hblank => ?_⟩
    have tokens' := spaced blank hblank
    refine ⟨marks_insert tokens' ?_ ?_, fun limit e => ?_⟩
    · simp only [String.utf8ByteSize_append, String.utf8ByteSize_singleton]
      omega
    · rw [String.utf8ByteSize_append]
      exact Nat.le_add_right _ _
    · have kinds : (ts.map (·.movedFrom before.utf8ByteSize blank.utf8Size)).map Token.kind =
          ts.map Token.kind := by simp
      rw [parseWithin_of_tokens tokens', parseWithin_of_tokens tokens, mapError_eq_ok_iff, mapError_eq_ok_iff]
      exact ⟨program_of_kinds kinds.symm, program_of_kinds kinds⟩

theorem layout_between_tokens_accent :
    marks "é+x" = .ok [(some (.name "é"), 0), (some (.symbol .plus), 2), (some (.name "x"), 3), (none, 4)] ∧
    ∃ before after, "é+x" = before ++ after ∧ 2 = before.utf8ByteSize ∧
      marks (before ++ String.singleton '\u3000' ++ after) =
        .ok [(some (.name "é"), 0), (some (.symbol .plus), 5), (some (.name "x"), 6), (none, 7)] := by
  have apart : EndsName ['+', 'x'] := by
    rintro _ ⟨⟩
    decide
  have name : readToken 'é' ['+', 'x'] = .ok (.name "é", 1) :=
    @readToken_name 'é' [] ['+', 'x'] (by decide +kernel) (fun _ => nofun) apart
  have plus : readToken '+' ['x'] = .ok (.symbol .plus, 1) := rfl
  have name' : readToken 'x' [] = .ok (.name "x", 1) := rfl
  have tokens : tokenize "é+x" = .ok [⟨.name "é", 0⟩, ⟨.symbol .plus, 2⟩, ⟨.name "x", 3⟩] :=
    tokenize_eq_ok_iff.2 (@Lexed.token 0 'é' [] _ _ _ (by decide) name
      (@Lexed.token 2 '+' [] _ _ _ (by decide) plus (@Lexed.token 3 'x' [] _ _ _ (by decide) name' .done)))
  have places : marks "é+x" = .ok (marksTo 4 [⟨.name "é", 0⟩, ⟨.symbol .plus, 2⟩, ⟨.name "x", 3⟩]) := by
    rw [marks, tokens]
    rfl
  obtain ⟨-, -, insert⟩ := layout_between_tokens places
  obtain ⟨before, after, text, size, spaced⟩ := insert 2 (by decide)
  exact ⟨places, before, after, text, size, (spaced '\u3000' (by decide)).1⟩

end TemplateExpr
