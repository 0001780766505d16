import TemplateExpr.Proofs.DisplayRoundTrip
import TemplateExpr.Proofs.Evaluation
import TemplateExpr.Render

/-!
# Names of bindings

The names that a configuration may give to its bindings are names to the scanner, and of those the parser makes
identifiers, but for the words that are literals or operators.  The configuration refuses just these words, so
what it accepts can be used: the one name stands for the filter library, the other for the environment.
-/

namespace TemplateExpr

/-! ### What a configuration accepts -/

theorem isNameStart_of_isBindingStart {c : Char} (h : isBindingStart c) : isNameStart c := by
  simp only [isBindingStart, Bool.or_eq_true, beq_iff_eq] at h
  simp only [isNameStart, Bool.or_eq_true, beq_iff_eq]
  obtain (alpha | underscore) | dollar := h
  · exact .inr (isLetter_of_isAlpha alpha)
  · exact .inl (.inl underscore)
  · exact .inl (.inr dollar)

theorem exists_of_isBindingName {name : String} (h : isBindingName name) :
    ∃ c rest, name.toList = c :: rest ∧ isBindingStart c ∧ ∀ d ∈ rest, isBindingStart d ∨ d.isDigit := by
  unfold isBindingName at h
  split at h
  · cases h
  · rename_i c rest text
    obtain ⟨start, parts⟩ := Bool.and_eq_true_iff.1 h
    exact ⟨c, rest, text, start, fun d hd => Bool.or_eq_true_iff.1 (List.all_eq_true.1 parts d hd)⟩

theorem isName_of_isBindingName {name : String} (h : isBindingName name) : IsName name := by
  obtain ⟨c, rest, text, start, parts⟩ := exists_of_isBindingName h
  refine ⟨c, rest, text, isNameStart_of_isBindingStart start, fun d hd => ?_⟩
  simp only [isNamePart, Bool.or_eq_true]
  obtain start | digit := parts d hd
  · exact .inl (.inl (.inl (isNameStart_of_isBindingStart start)))
  · exact .inl (.inl (.inr (isNumber_of_isDigit digit)))

namespace BindingField

variable {field : BindingField} {name : String}

theorem check_eq_ok_iff : field.check name = .ok () ↔ isBindingName name ∧ name ∉ reservedWords := by
  unfold check
  cases isBindingName name with
  | false => simp
  | true => by_cases h : name ∈ reservedWords <;> simp [h]

theorem check_eq_reserved_iff :
    field.check name = .error (.user (.reservedWord field name)) ↔ isBindingName name ∧ name ∈ reservedWords := by
  unfold check
  cases isBindingName name with
  | false => simp
  | true => by_cases h : name ∈ reservedWords <;> simp [h]

end BindingField

/-- Names that are different identifiers, neither of them a reserved word. -/
structure Bindings.IsValid (bindings : Bindings) : Prop where
  filters : isBindingName bindings.filters ∧ bindings.filters ∉ reservedWords
  env : isBindingName bindings.env ∧ bindings.env ∉ reservedWords
  apart : bindings.filters ≠ bindings.env

structure Config.IsValid (config : Config) : Prop where
  bindings : config.bindings.IsValid
  room : 0 < config.maxNesting

theorem Bindings.validate_eq_ok_iff {bindings : Bindings} : bindings.validate = .ok () ↔ bindings.IsValid := by
  constructor
  · intro h
    obtain ⟨_, filters, h⟩ := bind_ok h
    obtain ⟨_, env, h⟩ := bind_ok h
    refine ⟨BindingField.check_eq_ok_iff.1 filters, BindingField.check_eq_ok_iff.1 env, fun same => ?_⟩
    rw [if_pos same] at h
    cases h
  · intro h
    rw [validate, BindingField.check_eq_ok_iff.2 h.filters, ok_bind, BindingField.check_eq_ok_iff.2 h.env, ok_bind,
      if_neg h.apart]
    rfl

theorem Config.validate_eq_ok_iff {config : Config} : config.validate = .ok () ↔ config.IsValid := by
  constructor
  · intro h
    obtain ⟨_, bindings, h⟩ := bind_ok h
    refine ⟨Bindings.validate_eq_ok_iff.1 bindings, Nat.pos_of_ne_zero fun zero => ?_⟩
    rw [if_pos zero] at h
    cases h
  · intro h
    have room := h.room
    rw [validate, Bindings.validate_eq_ok_iff.2 h.bindings, ok_bind, if_neg (by omega)]
    rfl

theorem BindingField.check_errors (field : BindingField) (name : String) :
    ErrorsIn (fun error => error.kind = .user) (field.check name) := by
  unfold check
  split
  · exact .error rfl
  · split
    · exact .error rfl
    · exact .ok _

/-- What a configuration is refused for is something that the user has to put right. -/
theorem Config.validate_errors (config : Config) : ErrorsIn (fun error => error.kind = .user) config.validate := by
  unfold validate Bindings.validate
  refine ErrorsIn.bind ?_ fun _ => ?_
  · refine (BindingField.check_errors _ _).bind fun _ => (BindingField.check_errors _ _).bind fun _ => ?_
    split
    · exact .error rfl
    · exact .ok _
  · split
    · exact .error rfl
    · exact .ok _

/-! ### What the parser makes of a name -/

theorem program_word {word : String} {value : Literal} (h : (word, value) ∈ literalWords) (limit p : Nat) :
    Reader.program (limit + 1) [⟨.name word, p⟩] = .ok (.literal value) :=
  Reader.program_complete (.expr (Derives.whole (.tighter rfl (.tighter rfl (.word h))))) (by omega)

theorem program_without_room (name : String) (p : Nat) :
    Reader.program 0 [⟨.name name, p⟩] = .error ⟨.tooDeep, [⟨.name name, p⟩]⟩ := rfl

-- The operand is missing, or with less than two levels of nesting it is too deep to be looked for.
theorem program_typeof (limit p : Nat) : ∃ stop, Reader.program limit [⟨.name "typeof", p⟩] = .error stop := by
  rcases limit with _ | _ | limit
  · exact ⟨_, rfl⟩
  · exact ⟨_, rfl⟩
  · exact ⟨_, rfl⟩

theorem program_reserved {name : String} (h : name ∈ reservedWords) (limit p : Nat) :
    Reader.program limit [⟨.name name, p⟩] ≠ .ok (.identifier name) := by
  have words : ∀ word ∈ reservedWords, word = "typeof" ∨ ∃ entry ∈ literalWords, entry.1 = word := by decide
  obtain rfl | ⟨⟨word, value⟩, entry, rfl⟩ := words name h
  · obtain ⟨stop, failed⟩ := program_typeof limit p
    rw [failed]
    exact nofun
  · cases limit with
    | zero =>
      rw [program_without_room]
      exact nofun
    | succ limit =>
      rw [program_word entry]
      exact nofun

/-- With a level of nesting to spare, a name is an identifier unless it is reserved. -/
theorem parseWithin_name_iff {name : String} (h : IsName name) {limit : Nat} :
    Expr.parseWithin limit name = .ok (.identifier name) ↔ name ∉ reservedWords ∧ 0 < limit := by
  rw [parseWithin_of_tokens (tokenize_name h), mapError_eq_ok_iff]
  constructor
  · intro read
    refine ⟨fun reserved => program_reserved reserved limit 0 read, Nat.pos_of_ne_zero ?_⟩
    rintro rfl
    rw [program_without_room] at read
    cases read
  · rintro ⟨unreserved, room⟩
    have derived : Derives .unary 0 [⟨.name name, 0⟩] (.identifier name) :=
      .tighter rfl (.tighter rfl (.unreserved unreserved))
    exact Reader.program_complete (.expr derived.whole) room

/-! ### What the names stand for -/

theorem evaluate_identifier (bindings : Bindings) (env : Value) (name : String) :
    (Expr.identifier name).evaluate bindings env = Scope.meaning ⟨bindings, env⟩ (.identifier name) := by
  obtain same | ⟨deep, -⟩ := evaluate_follows bindings env (.identifier name)
  · exact same
  · exact absurd deep (Nat.not_lt.2 (show 1 ≤ maxDepth by decide))

theorem Config.evaluate_filters (config : Config) (env : Value) :
    config.evaluate env (.identifier config.bindings.filters) = .ok .filters := by
  rw [evaluate, evaluate_identifier, Scope.meaning, Scope.value?, if_pos rfl]

theorem Config.evaluate_env {config : Config} (h : config.bindings.filters ≠ config.bindings.env) (env : Value) :
    config.evaluate env (.identifier config.bindings.env) = .ok env := by
  rw [evaluate, evaluate_identifier, Scope.meaning, Scope.value?, if_neg h.symm, if_pos rfl]

/-- Within the nesting of a valid configuration the name of its filters is an identifier, which stands for the
filter library in every environment, and the name of its environment is one that stands for this.  What is
refused as reserved is no such identifier, and of the names of the right form it is just the reserved ones that
the parser withholds. -/
theorem binding_names_usable :
    (∀ config : Config, config.validate = .ok () → ∀ env,
      (Expr.parseWithin config.maxNesting config.bindings.filters =
          .ok (.identifier config.bindings.filters) ∧
        config.evaluate env (.identifier config.bindings.filters) = .ok .filters) ∧
      (Expr.parseWithin config.maxNesting config.bindings.env = .ok (.identifier config.bindings.env) ∧
        config.evaluate env (.identifier config.bindings.env) = .ok env)) ∧
    (∀ (field : BindingField) name limit, field.check name = .error (.user (.reservedWord field name)) →
      Expr.parseWithin limit name ≠ .ok (.identifier name)) ∧
    ∀ name limit, isBindingName name → 0 < limit →
      (name ∈ reservedWords ↔ Expr.parseWithin limit name ≠ .ok (.identifier name)) := by
  refine ⟨fun config valid env => ?_, fun field name limit refused => ?_, fun name limit form room => ?_⟩
  · obtain ⟨⟨⟨form, unreserved⟩, ⟨form', unreserved'⟩, apart⟩, room⟩ := Config.validate_eq_ok_iff.1 valid
    exact ⟨⟨(parseWithin_name_iff (isName_of_isBindingName form)).2 ⟨unreserved, room⟩,
        config.evaluate_filters env⟩,
      (parseWithin_name_iff (isName_of_isBindingName form')).2 ⟨unreserved', room⟩, Config.evaluate_env apart env⟩
  · obtain ⟨form, reserved⟩ := BindingField.check_eq_reserved_iff.1 refused
    exact fun read => ((parseWithin_name_iff (isName_of_isBindingName form)).1 read).1 reserved
  · rw [Ne, parseWithin_name_iff (isName_of_isBindingName form)]
    simp [room]

theorem binding_names_usable_page :
    let config : Config := ⟨⟨"$f_1", "page"⟩, 1⟩
    config.validate = .ok () ∧
      (Expr.parseWithin 1 "$f_1" = .ok (.identifier "$f_1") ∧
        config.evaluate (.bool true) (.identifier "$f_1") = .ok .filters) ∧
      (Expr.parseWithin 1 "page" = .ok (.identifier "page") ∧
        config.evaluate (.bool true) (.identifier "page") = .ok (.bool true)) ∧
      BindingField.env.check "typeof" = .error (.user (.reservedWord .env "typeof")) ∧
      Expr.parseWithin 3 "typeof" ≠ .ok (.identifier "typeof") ∧
      ("typeof" ∈ reservedWords ↔ Expr.parseWithin 3 "typeof" ≠ .ok (.identifier "typeof")) := by
  intro config
  have valid : config.validate = .ok () :=
    Config.validate_eq_ok_iff.2 ⟨⟨by decide, by decide, by decide⟩, by decide⟩
  obtain ⟨usable, refused, withheld⟩ := binding_names_usable
  obtain ⟨filters, environment⟩ := usable config valid (.bool true)
  have reserved : BindingField.env.check "typeof" = .error (.user (.reservedWord .env "typeof")) := rfl
  exact ⟨valid, filters, environment, reserved, refused .env "typeof" 3 reserved,
    withheld "typeof" 3 (by decide) (by decide)⟩

end TemplateExpr
