import Rulebase.Proofs.Query.Grammar

/-!
# Parsing and the grammar

Parsing takes tokens from the front of a list, so every part of it is tied to the tokens that it takes.
What a part gives stands for a sentence written in those tokens; and from the tokens of a sentence a part
gives what the sentence stands for. Both are shown by induction on the steps allowed, one step reading
one expression or one operand. Together: a text parses to what a sentence stands for just when the text is
written in the tokens of that sentence.
-/

namespace Rulebase.Query

variable {setting : Setting} {ts rest : List Token} {more : List Lexeme}

theorem significant_cons (t : Token) (ts : List Token) :
    significant (t :: ts) =
      if t.lexeme = .newline then significant ts else t.lexeme :: significant ts := by
  by_cases feed : t.lexeme = .newline <;> simp [significant, feed]

theorem bind_eq_ok {α β : Type} {p : Parser α} {f : α → Parser β} {b : β} :
    (p >>= f) ts = .ok (b, rest) ↔ ∃ a middle, p ts = .ok (a, middle) ∧ f a middle = .ok (b, rest) := by
  change (p ts >>= fun r => f r.1 r.2) = .ok (b, rest) ↔ _
  cases p ts with
  | error e => simp [bind, Except.bind]
  | ok r =>
    obtain ⟨a, middle⟩ := r
    constructor
    · intro finished
      exact ⟨a, middle, rfl, finished⟩
    · rintro ⟨a, middle, started, finished⟩
      cases started
      exact finished

theorem next_eq_ok {token : Token} (taken : next setting ts = .ok (token, rest)) :
    significant ts = token.lexeme :: significant rest ∨
      token = setting.finish ∧ significant ts = [] ∧ rest = [] := by
  induction ts with
  | nil =>
    simp only [next, Except.ok.injEq, Prod.mk.injEq] at taken
    exact Or.inr ⟨taken.1.symm, rfl, taken.2.symm⟩
  | cons t ts ih =>
    rw [significant_cons]
    unfold next at taken
    split at taken
    · rename_i feed
      rw [if_pos feed]
      exact ih taken
    · cases taken
    · rename_i proper _
      simp only [Except.ok.injEq, Prod.mk.injEq] at taken
      rw [if_neg proper, taken.1, taken.2]
      exact Or.inl rfl

theorem next_lexeme {token : Token} (ends : setting.finish.lexeme = .finish)
    (taken : next setting ts = .ok (token, rest)) :
    token.lexeme = .finish ∨ significant ts = token.lexeme :: significant rest := by
  rcases next_eq_ok taken with shown | ⟨same, _, _⟩
  · exact Or.inr shown
  · exact Or.inl ((congrArg Token.lexeme same).trans ends)

theorem exactly_eq_some {l got : Lexeme} {u : Unit} : exactly l got = some u ↔ got = l := by
  unfold exactly
  split <;> simp_all

theorem keyword?_eq_some {got : Lexeme} {word : String} :
    keyword? got = some word ↔ got = .keyword word := by
  cases got <;> simp [keyword?]

theorem parameter?_eq_some {got : Lexeme} {word : String} :
    parameter? got = some word ↔ got = .parameter word := by
  cases got <;> simp [parameter?]

/-- What is expected and found is the next token, unless it is the end. -/
theorem expect_eq_ok {α : Type} {wanted : Wanted} {pick : Lexeme → Option α} {found : α × Nat}
    (ends : setting.finish.lexeme = .finish) (never : pick .finish = none)
    (taken : expect setting wanted pick ts = .ok (found, rest)) :
    ∃ l, significant ts = l :: significant rest ∧ pick l = some found.1 := by
  unfold expect at taken
  obtain ⟨token, middle, pulled, checked⟩ := bind_eq_ok.mp taken
  cases picked : pick token.lexeme with
  | none =>
    rw [picked] at checked
    cases checked
  | some a =>
    rw [picked] at checked
    cases checked
    rcases next_eq_ok pulled with shown | ⟨rfl, _, _⟩
    · exact ⟨token.lexeme, shown, picked⟩
    · rw [ends, never] at picked
      cases picked

theorem exactly_eq_ok {wanted : Wanted} {l : Lexeme} {found : Unit × Nat}
    (ends : setting.finish.lexeme = .finish)
    (taken : expect setting wanted (exactly l) ts = .ok (found, rest)) (proper : l ≠ .finish) :
    significant ts = l :: significant rest := by
  have never : exactly l .finish = none := if_neg (Ne.symm proper)
  obtain ⟨got, shown, picked⟩ := expect_eq_ok ends never taken
  rw [exactly_eq_some.mp picked] at shown
  exact shown

theorem keyword_eq_ok {wanted : Wanted} {found : String × Nat}
    (ends : setting.finish.lexeme = .finish)
    (taken : expect setting wanted keyword? ts = .ok (found, rest)) :
    significant ts = .keyword found.1 :: significant rest := by
  obtain ⟨got, shown, picked⟩ := expect_eq_ok ends rfl taken
  rw [keyword?_eq_some.mp picked] at shown
  exact shown

theorem parameter_eq_ok {wanted : Wanted} {found : String × Nat}
    (ends : setting.finish.lexeme = .finish)
    (taken : expect setting wanted parameter? ts = .ok (found, rest)) :
    significant ts = .parameter found.1 :: significant rest := by
  obtain ⟨got, shown, picked⟩ := expect_eq_ok ends rfl taken
  rw [parameter?_eq_some.mp picked] at shown
  exact shown

theorem denoted_eq_ok {catalog : Option Catalog} {literal : String} {offset : Nat} {object : Object} :
    denoted catalog literal offset = .ok object ↔ object? catalog literal = some object := by
  unfold denoted object?
  dsimp only
  split
  · simp [fail, throw, throwThe, MonadExceptOf.throw]
  · cases (Literal.ofChars (Text.trim literal.toList)).build with
    | error e => cases e <;> simp [fail, throw, throwThe, MonadExceptOf.throw]
    | ok built =>
      cases built with
      | inl leaf => simp
      | inr name =>
        dsimp only
        cases lookup catalog name <;> simp [fail, throw, throwThe, MonadExceptOf.throw]

theorem sideFor_eq_ok {object : Object} {word : String} {offset : Nat} {side : Side} :
    sideFor object word offset = .ok side ↔
      side? word = some side ∧ (object.family = .service ↔ side = .service) := by
  unfold sideFor
  cases named : side? word with
  | none => simp [fail, throw, throwThe, MonadExceptOf.throw]
  | some found =>
    cases family : object.family <;> by_cases service : found = .service <;>
      simp [service, fail, throw, throwThe, MonadExceptOf.throw] <;> grind

theorem lift_eq_ok {α : Type} {x : Except QueryError α} {a : α} :
    (liftM x : Parser α) ts = .ok (a, rest) ↔ x = .ok a ∧ rest = ts := by
  change (x >>= fun a => pure (a, ts)) = Except.ok (a, rest) ↔ _
  cases x with
  | error e => simp [bind, Except.bind]
  | ok b => simp [bind, Except.bind, pure, Except.pure, eq_comm]

/-- A quoted object is read from a literal between quotes that denotes it. -/
theorem quotedObject_eq_ok {object : Object} (ends : setting.finish.lexeme = .finish)
    (taken : quotedObject setting ts = .ok (object, rest)) :
    ∃ literal, significant ts = .quote :: .parameter literal :: .quote :: significant rest ∧
      object? setting.catalog literal = some object := by
  unfold quotedObject at taken
  obtain ⟨opening, first, opened, taken⟩ := bind_eq_ok.mp taken
  obtain ⟨⟨literal, offset⟩, second, named, taken⟩ := bind_eq_ok.mp taken
  obtain ⟨closing, third, closed, taken⟩ := bind_eq_ok.mp taken
  obtain ⟨found, rfl⟩ := lift_eq_ok.mp taken
  refine ⟨literal, ?_, denoted_eq_ok.mp found⟩
  rw [exactly_eq_ok ends opened nofun, parameter_eq_ok ends named, exactly_eq_ok ends closed nofun]

/-- A side is read from a selection that names it and the closing parenthesis behind. -/
theorem selector_eq_ok {object : Object} {side : Side} (ends : setting.finish.lexeme = .finish)
    (taken : selector setting object ts = .ok (side, rest)) :
    ∃ selection : Selection,
      significant ts = selection.lexemes ++ .rightParen :: significant rest ∧
        selection.Names object side := by
  unfold selector at taken
  obtain ⟨⟨lexeme, offset⟩, first, pulled, taken⟩ := bind_eq_ok.mp taken
  have shown : lexeme = .finish ∨ significant ts = lexeme :: significant first :=
    next_lexeme ends pulled
  dsimp only at taken
  split at taken
  · cases taken
    refine ⟨.absent, ?_, Selection.names_absent_iff.mpr rfl⟩
    simpa [Selection.lexemes] using shown
  · obtain ⟨⟨word, _⟩, second, worded, taken⟩ := bind_eq_ok.mp taken
    have inWord := keyword_eq_ok ends worded
    dsimp only at taken inWord
    split at taken
    · rename_i isIn
      obtain ⟨⟨name, _⟩, third, named, taken⟩ := bind_eq_ok.mp taken
      obtain ⟨_, fourth, enclosed, taken⟩ := bind_eq_ok.mp taken
      obtain ⟨_, fifth, closed, taken⟩ := bind_eq_ok.mp taken
      obtain ⟨found, rfl⟩ := lift_eq_ok.mp taken
      refine ⟨.enclosed name, ?_, sideFor_eq_ok.mp found⟩
      have sideWord := parameter_eq_ok ends named
      have enclosing := exactly_eq_ok ends enclosed nofun
      have closing := exactly_eq_ok ends closed nofun
      simp_all [Selection.lexemes]
    · cases taken
  · obtain ⟨⟨name, _⟩, second, named, taken⟩ := bind_eq_ok.mp taken
    obtain ⟨_, third, closed, taken⟩ := bind_eq_ok.mp taken
    obtain ⟨found, rfl⟩ := lift_eq_ok.mp taken
    refine ⟨.bare name, ?_, sideFor_eq_ok.mp found⟩
    have sideWord := parameter_eq_ok ends named
    have closing := exactly_eq_ok ends closed nofun
    simp_all [Selection.lexemes]
  · cases taken

/-- A test is read from a quoted literal, a selection and the closing parenthesis. -/
theorem atom_eq_ok {make : Object → Side → Atom} {condition : Condition Atom}
    (ends : setting.finish.lexeme = .finish)
    (taken : atom setting make ts = .ok (condition, rest)) :
    ∃ (literal : String) (selection : Selection) (object : Object) (side : Side),
      significant ts = .quote :: .parameter literal :: .quote ::
        (selection.lexemes ++ .rightParen :: significant rest) ∧
      object? setting.catalog literal = some object ∧ selection.Names object side ∧
      condition = .test (make object side) := by
  unfold atom at taken
  obtain ⟨object, first, quoted, taken⟩ := bind_eq_ok.mp taken
  obtain ⟨side, second, selected, taken⟩ := bind_eq_ok.mp taken
  cases taken
  obtain ⟨literal, opening, found⟩ := quotedObject_eq_ok ends quoted
  obtain ⟨selection, closing, named⟩ := selector_eq_ok ends selected
  rw [closing] at opening
  exact ⟨literal, selection, object, side, opening, found, named, rfl⟩

/-- Whatever an expression gives is what some sentence, behind its opening parenthesis, stands for. -/
def ReadsExpression (setting : Setting) (steps : Nat) : Prop :=
  ∀ ts rest condition, expression setting steps ts = .ok (condition, rest) →
    ∃ s : Sentence, .leftParen :: significant ts = s.lexemes ++ significant rest ∧
      Denotes setting.catalog s condition

def ReadsOperands (setting : Setting) (steps : Nat) : Prop :=
  ∀ junction first ts rest conditions,
    operands setting junction first steps ts = .ok (conditions, rest) →
    ∃ ss, significant ts = lexemesOf ss ++ .rightParen :: significant rest ∧
      AllDenote setting.catalog ss conditions ∧ (first = true → ss ≠ [])

theorem ReadsOperands.joined {steps : Nat} (row : ReadsOperands setting steps) {junction : Junction}
    {start : List Token} {conditions : List (Condition Atom)}
    (keyword : significant start = .keyword junction.word :: significant ts)
    (taken : operands setting junction true steps ts = .ok (conditions, rest)) :
    ∃ s : Sentence, .leftParen :: significant start = s.lexemes ++ significant rest ∧
      Denotes setting.catalog s (junction.condition conditions) := by
  obtain ⟨ss, shown, denote, some⟩ := row _ _ _ _ _ taken
  cases denote with
  | nil => exact absurd rfl (some rfl)
  | cons one others =>
    refine ⟨.joined junction _ _, ?_, .joined one others⟩
    simp [keyword, shown, Sentence.lexemes, lexemesOf]

theorem ReadsExpression.test (verb : Verb) {start : List Token} {condition : Condition Atom}
    (ends : setting.finish.lexeme = .finish)
    (keyword : significant start = .keyword verb.word :: significant ts)
    (taken : atom setting verb.atom ts = .ok (condition, rest)) :
    ∃ s : Sentence, .leftParen :: significant start = s.lexemes ++ significant rest ∧
      Denotes setting.catalog s condition := by
  obtain ⟨literal, selection, object, side, shown, found, named, rfl⟩ := atom_eq_ok ends taken
  refine ⟨.test verb literal selection, ?_, .test found named⟩
  simp [keyword, shown, Sentence.lexemes]

theorem readsExpression_succ {steps : Nat} (ends : setting.finish.lexeme = .finish)
    (one : ReadsExpression setting steps) (row : ReadsOperands setting steps) :
    ReadsExpression setting (steps + 1) := by
  intro ts rest condition taken
  unfold expression at taken
  obtain ⟨⟨word, offset⟩, first, worded, taken⟩ := bind_eq_ok.mp taken
  have keyword := keyword_eq_ok ends worded
  dsimp only at taken keyword
  split at taken
  · exact ReadsExpression.test .has ends keyword taken
  · exact ReadsExpression.test .contains ends keyword taken
  · obtain ⟨conditions, second, joined, taken⟩ := bind_eq_ok.mp taken
    cases taken
    exact row.joined keyword joined
  · obtain ⟨conditions, second, joined, taken⟩ := bind_eq_ok.mp taken
    cases taken
    exact row.joined keyword joined
  · obtain ⟨_, second, opened, taken⟩ := bind_eq_ok.mp taken
    obtain ⟨condition, third, inner, taken⟩ := bind_eq_ok.mp taken
    obtain ⟨_, fourth, closed, taken⟩ := bind_eq_ok.mp taken
    cases taken
    obtain ⟨s, shown, denotes⟩ := one _ _ _ inner
    refine ⟨.negated s, ?_, .negated denotes⟩
    rw [keyword, exactly_eq_ok ends opened nofun, shown, exactly_eq_ok ends closed nofun]
    simp [Sentence.lexemes]
  · cases taken

theorem readsOperands_succ {steps : Nat} (ends : setting.finish.lexeme = .finish)
    (one : ReadsExpression setting steps) (row : ReadsOperands setting steps) :
    ReadsOperands setting (steps + 1) := by
  intro junction first ts rest conditions taken
  unfold operands at taken
  obtain ⟨⟨lexeme, offset⟩, second, pulled, taken⟩ := bind_eq_ok.mp taken
  have shown : lexeme = .finish ∨ significant ts = lexeme :: significant second :=
    next_lexeme ends pulled
  dsimp only at taken
  split at taken
  · obtain ⟨condition, third, head, taken⟩ := bind_eq_ok.mp taken
    obtain ⟨conditions, fourth, others, taken⟩ := bind_eq_ok.mp taken
    cases taken
    obtain ⟨s, opening, denotes⟩ := one _ _ _ head
    obtain ⟨ss, closing, denote, _⟩ := row _ _ _ _ _ others
    refine ⟨s :: ss, ?_, .cons denotes denote, nofun⟩
    rcases shown with ended | shown
    · cases ended
    · rw [shown, opening, closing, lexemesOf, List.append_assoc]
  · split at taken
    · cases taken
    · rename_i later
      cases taken
      refine ⟨[], ?_, .nil, fun now => absurd now later⟩
      simpa [lexemesOf] using shown
  · cases taken

/-- What is read is written as the grammar has it, however many steps are allowed. -/
theorem reads_steps (ends : setting.finish.lexeme = .finish) (steps : Nat) :
    ReadsExpression setting steps ∧ ReadsOperands setting steps := by
  induction steps with
  | zero =>
    constructor
    · intro ts rest condition taken
      cases taken
    · intro junction first ts rest conditions taken
      cases taken
  | succ steps ih =>
    exact ⟨readsExpression_succ ends ih.1 ih.2, readsOperands_succ ends ih.1 ih.2⟩

/-- A part of the parsing takes some tokens from the front, whatever stands behind them, and leads to
a value of some property. -/
def Takes {α : Type} (p : Parser α) (ls : List Lexeme) (Q : α → Prop) : Prop :=
  ∀ ts more, significant ts = ls ++ more →
    ∃ a rest, p ts = .ok (a, rest) ∧ Q a ∧ significant rest = more

namespace Takes

variable {α β : Type} {p : Parser α} {f : α → Parser β} {Q : α → Prop} {R : β → Prop}

theorem bind {ls ms : List Lexeme} (first : Takes p ls Q) (second : ∀ a, Q a → Takes (f a) ms R) :
    Takes (p >>= f) (ls ++ ms) R := by
  intro ts more shown
  rw [List.append_assoc] at shown
  obtain ⟨a, middle, started, good, left⟩ := first ts _ shown
  obtain ⟨b, rest, finished, better, left⟩ := second a good middle more left
  exact ⟨b, rest, bind_eq_ok.mpr ⟨a, middle, started, finished⟩, better, left⟩

/-- The next token first. -/
theorem cons {l : Lexeme} {ms : List Lexeme} (first : Takes p [l] Q)
    (second : ∀ a, Q a → Takes (f a) ms R) : Takes (p >>= f) (l :: ms) R :=
  first.bind second

theorem pure {a : α} (good : Q a) : Takes (pure a) [] Q :=
  fun ts _ shown => ⟨a, ts, rfl, good, shown⟩

theorem lift {x : Except QueryError α} {a : α} (found : x = .ok a) :
    Takes (liftM x) [] (· = a) :=
  fun ts _ shown => ⟨a, ts, lift_eq_ok.mpr ⟨found, rfl⟩, rfl, shown⟩

theorem next {l : Lexeme} (clean : ∀ fault, l ≠ .fault fault) :
    Takes (next setting) [l] (·.lexeme = l) := by
  intro ts more shown
  induction ts with
  | nil => cases shown
  | cons t ts ih =>
    rw [significant_cons] at shown
    unfold Query.next
    by_cases feed : t.lexeme = .newline
    · rw [if_pos feed] at shown
      simpa [feed] using ih shown
    · rw [if_neg feed] at shown
      obtain ⟨same, rfl⟩ := List.cons.inj shown
      refine ⟨t, ts, ?_, same, rfl⟩
      split
      · contradiction
      · rename_i fault faulty
        exact absurd (same.symm.trans faulty) (clean fault)
      · rfl

theorem expect {wanted : Wanted} {pick : Lexeme → Option α} {l : Lexeme} {a : α}
    (clean : ∀ fault, l ≠ .fault fault) (picked : pick l = some a) :
    Takes (expect setting wanted pick) [l] (·.1 = a) := by
  unfold Query.expect
  refine (next clean).cons fun token same => ?_
  rw [same, picked]
  exact pure rfl

theorem exactly {wanted : Wanted} {l : Lexeme} (clean : ∀ fault, l ≠ .fault fault) :
    Takes (Query.expect setting wanted (exactly l)) [l] (·.1 = ()) :=
  expect clean (if_pos rfl)

theorem keyword {wanted : Wanted} {word : String} :
    Takes (Query.expect setting wanted keyword?) [.keyword word] (·.1 = word) :=
  expect (by nofun) rfl

theorem parameter {wanted : Wanted} {word : String} :
    Takes (Query.expect setting wanted parameter?) [.parameter word] (·.1 = word) :=
  expect (by nofun) rfl

theorem quotedObject {literal : String} {object : Object}
    (found : object? setting.catalog literal = some object) :
    Takes (quotedObject setting) [.quote, .parameter literal, .quote] (· = object) := by
  unfold Query.quotedObject
  refine (exactly (by nofun)).cons fun _ _ => parameter.cons fun (_, _) same => ?_
  subst same
  exact (exactly (by nofun)).cons fun _ _ => lift (denoted_eq_ok.mpr found)

theorem selector {object : Object} {selection : Selection} {side : Side}
    (named : selection.Names object side) :
    Takes (selector setting object) (selection.lexemes ++ [.rightParen]) (· = side) := by
  unfold Query.selector
  cases selection with
  | absent =>
    refine (next (by nofun)).cons fun token same => ?_
    rw [same]
    exact pure (Selection.names_absent_iff.mp named).symm
  | bare word =>
    refine (next (by nofun)).cons fun token same => ?_
    rw [same]
    refine parameter.cons fun (_, _) same => ?_
    subst same
    exact (exactly (by nofun)).cons fun _ _ => lift (sideFor_eq_ok.mpr named)
  | enclosed word =>
    refine (next (by nofun)).cons fun token same => ?_
    rw [same]
    refine keyword.cons fun (_, _) same => ?_
    dsimp only at same ⊢
    rw [if_pos same]
    refine parameter.cons fun (_, _) same => ?_
    subst same
    exact (exactly (by nofun)).cons fun _ _ => (exactly (by nofun)).cons fun _ _ =>
      lift (sideFor_eq_ok.mpr named)

theorem atom {make : Object → Side → Atom} {literal : String} {selection : Selection}
    {object : Object} {side : Side} (found : object? setting.catalog literal = some object)
    (named : selection.Names object side) :
    Takes (atom setting make)
      ([.quote, .parameter literal, .quote] ++ (selection.lexemes ++ [.rightParen]))
      (· = .test (make object side)) := by
  unfold Query.atom
  refine (quotedObject found).bind fun _ same => ?_
  subst same
  rw [← List.append_nil (selection.lexemes ++ _)]
  refine (selector named).bind fun _ same => ?_
  subst same
  exact pure rfl

end Takes

/-- As many steps as a sentence has tokens are enough to read it behind its opening parenthesis. -/
def TakesExpression (setting : Setting) (steps : Nat) : Prop :=
  ∀ (s : Sentence) condition body, Denotes setting.catalog s condition →
    s.lexemes = .leftParen :: body → s.lexemes.length ≤ steps →
    Takes (expression setting steps) body (· = condition)

/-- More steps than sentences have tokens are enough to read them up to the closing parenthesis. -/
def TakesOperands (setting : Setting) (steps : Nat) : Prop :=
  ∀ junction first ss conditions, AllDenote setting.catalog ss conditions →
    (first = true → ss ≠ []) → (lexemesOf ss).length < steps →
    Takes (operands setting junction first steps) (lexemesOf ss ++ [.rightParen]) (· = conditions)

theorem TakesOperands.joined {steps : Nat} (row : TakesOperands setting steps) (junction : Junction)
    {sentence : Sentence} {others : List Sentence} {conditions : List (Condition Atom)}
    (denote : AllDenote setting.catalog (sentence :: others) conditions)
    (enough : (lexemesOf (sentence :: others)).length < steps) :
    Takes (operands setting junction true steps >>= fun conditions =>
        (pure (junction.condition conditions) : Parser (Condition Atom)))
      (sentence.lexemes ++ lexemesOf others ++ [.rightParen]) (· = junction.condition conditions) := by
  rw [← List.append_nil (_ ++ [_])]
  refine (row junction true _ _ denote nofun enough).bind fun _ same => ?_
  subst same
  exact Takes.pure rfl

theorem takesExpression_succ {steps : Nat} (one : TakesExpression setting steps)
    (row : TakesOperands setting steps) : TakesExpression setting (steps + 1) := by
  intro s condition body denotes opens enough
  unfold expression
  cases denotes with
  | @test verb literal selection object side found named =>
    cases opens
    refine Takes.keyword.cons fun (_, _) same => ?_
    subst same
    cases verb with
    | has => exact Takes.atom found named
    | contains => exact Takes.atom found named
  | @joined junction sentence others condition conditions first rest =>
    cases opens
    have shorter : (lexemesOf (sentence :: others)).length < steps := by
      simp only [Sentence.lexemes, lexemesOf, List.length_append, List.length_cons,
        List.length_nil] at enough ⊢
      omega
    refine Takes.keyword.cons fun (_, _) same => ?_
    subst same
    cases junction with
    | all => exact row.joined .all (.cons first rest) shorter
    | any => exact row.joined .any (.cons first rest) shorter
  | @negated sentence condition inner =>
    cases opens
    obtain ⟨body, opens⟩ := sentence.exists_cons
    have shorter : sentence.lexemes.length ≤ steps := by
      simp only [Sentence.lexemes, List.length_append, List.length_cons, List.length_nil] at enough
      omega
    refine Takes.keyword.cons fun (_, _) same => ?_
    subst same
    change Takes _ (sentence.lexemes ++ [.rightParen]) _
    rw [opens]
    refine (Takes.exactly (by nofun)).cons fun _ _ => ?_
    refine (one sentence condition body inner opens shorter).bind fun _ same => ?_
    subst same
    exact (Takes.exactly (by nofun)).cons fun _ _ => Takes.pure rfl

theorem takesOperands_succ {steps : Nat} (one : TakesExpression setting steps)
    (row : TakesOperands setting steps) : TakesOperands setting (steps + 1) := by
  intro junction first ss conditions denote some enough
  unfold operands
  cases denote with
  | nil =>
    have later : ¬ first = true := fun now => some now rfl
    refine (Takes.next (by nofun)).cons fun token same => ?_
    rw [same]
    dsimp only
    rw [if_neg later]
    exact Takes.pure rfl
  | @cons sentence others condition conditions head rest =>
    obtain ⟨body, opens⟩ := sentence.exists_cons
    simp only [lexemesOf, List.length_append] at enough
    have opened : 0 < sentence.lexemes.length := by simp [opens]
    rw [lexemesOf, opens, List.cons_append, List.cons_append, List.append_assoc]
    refine (Takes.next (by nofun)).cons fun token same => ?_
    rw [same]
    refine (one sentence condition body head opens (by omega)).bind fun _ same => ?_
    subst same
    rw [← List.append_nil (_ ++ [_])]
    refine (row junction false others conditions rest nofun (by omega)).bind fun _ same => ?_
    subst same
    exact Takes.pure rfl

theorem takes_steps (setting : Setting) (steps : Nat) :
    TakesExpression setting steps ∧ TakesOperands setting steps := by
  induction steps with
  | zero =>
    constructor
    · intro s condition body denotes opens enough
      rw [opens] at enough
      cases enough
    · intro junction first ss conditions denote some enough
      cases enough
  | succ steps ih => exact ⟨takesExpression_succ ih.1 ih.2, takesOperands_succ ih.1 ih.2⟩

theorem stepPlain_ne_finish (offset : Nat) (c : Char) :
    ∀ t ∈ (stepPlain offset c).1, t.lexeme ≠ .finish := by
  unfold stepPlain
  repeat' split
  all_goals simp

theorem step_ne_finish (mode : Mode) (offset : Nat) (c : Char) :
    ∀ t ∈ (step mode offset c).1, t.lexeme ≠ .finish := by
  have plain := stepPlain_ne_finish offset c
  cases mode <;> simp only [step] <;> repeat' split
  all_goals simp_all

theorem scan_ne_finish (mode : Mode) (offset : Nat) (cs : List Char) :
    ∀ t ∈ scan mode offset cs, t.lexeme ≠ .finish := by
  induction cs generalizing mode offset with
  | nil => cases mode <;> simp [scan, close]
  | cons c cs ih =>
    intro t found
    rw [scan] at found
    rcases List.mem_append.mp found with here | later
    · exact step_ne_finish mode offset c t here
    · exact ih _ _ t later

theorem significant_append (ts us : List Token) :
    significant (ts ++ us) = significant ts ++ significant us := by
  simp [significant]

theorem finish_notMem_significant (text : String) : .finish ∉ significant (tokens text) := by
  intro found
  obtain ⟨t, scanned, same⟩ := List.mem_map.mp (List.mem_filter.mp found).1
  exact scan_ne_finish .plain 0 text.toList t scanned same

theorem significant_tokenize (text : String) :
    significant (tokenize text) = significant (tokens text) ++ [.finish] :=
  significant_append (tokens text) [finish text]

theorem length_significant_le (ts : List Token) : (significant ts).length ≤ ts.length := by
  have shorter := List.length_filter_le (· ≠ Lexeme.newline) (ts.map Token.lexeme)
  rwa [List.length_map] at shorter

theorem next_of_significant_nil (ended : significant ts = []) :
    next setting ts = .ok (setting.finish, []) := by
  induction ts with
  | nil => rfl
  | cons t ts ih =>
    rw [significant_cons] at ended
    split at ended
    · rename_i feed
      simpa [next, feed] using ih ended
    · cases ended

theorem parse_eq_ok {catalog : Option Catalog} {text : String} {condition : Condition Atom} :
    parse catalog text = .ok condition ↔
      ∃ rest, query ⟨catalog, finish text⟩ (tokens text).length (tokens text) =
        .ok (condition, rest) := by
  unfold parse
  dsimp only
  change (Prod.fst <$> query _ _ _ : Except QueryError (Condition Atom)) = _ ↔ _
  cases query ⟨catalog, finish text⟩ (tokens text).length (tokens text) with
  | error e => simp [Functor.map, Except.map]
  | ok r =>
    obtain ⟨found, rest⟩ := r
    simp [Functor.map, Except.map]

/-- What parsing gives is what a sentence stands for in which the text is written. -/
theorem reads_of_parse {catalog : Option Catalog} {text : String} {condition : Condition Atom}
    (parsed : parse catalog text = .ok condition) :
    ∃ s, Reads text s ∧ Denotes catalog s condition := by
  obtain ⟨rest, taken⟩ := parse_eq_ok.mp parsed
  unfold query at taken
  obtain ⟨⟨lexeme, offset⟩, first, pulled, taken⟩ := bind_eq_ok.mp taken
  have opened := next_lexeme rfl pulled
  dsimp only at taken opened
  split at taken
  · cases taken
  · obtain ⟨condition, second, inner, taken⟩ := bind_eq_ok.mp taken
    obtain ⟨last, third, ended, taken⟩ := bind_eq_ok.mp taken
    split at taken
    · rename_i atEnd
      cases taken
      obtain ⟨s, shown, denotes⟩ := (reads_steps rfl _).1 _ _ _ inner
      have whole : significant (tokens text) = s.lexemes ++ significant second := by
        rcases opened with ended | opened
        · cases ended
        · rw [opened, shown]
      have nothing : significant second = [] := by
        rcases next_eq_ok ended with more | ⟨_, nothing, _⟩
        · refine absurd ?_ (finish_notMem_significant text)
          simp [whole, more, atEnd]
        · exact nothing
      refine ⟨s, ?_, denotes⟩
      rw [Reads, significant_tokenize, whole, nothing, List.append_nil]
    · cases taken
  · cases taken

/-- A text written in the tokens of a sentence is parsed to what the sentence stands for. -/
theorem parse_of_reads {catalog : Option Catalog} {text : String} {s : Sentence}
    {condition : Condition Atom} (reads : Reads text s) (denotes : Denotes catalog s condition) :
    parse catalog text = .ok condition := by
  rw [Reads, significant_tokenize] at reads
  have whole : significant (tokens text) = s.lexemes := List.append_cancel_right reads
  obtain ⟨body, opens⟩ := s.exists_cons
  have enough : s.lexemes.length ≤ (tokens text).length := whole ▸ length_significant_le _
  rw [opens, ← List.append_nil (_ :: _)] at whole
  obtain ⟨token, first, pulled, same, shown⟩ :=
    Takes.next (by nofun) (tokens text) (body ++ []) whole
  obtain ⟨_, second, taken, rfl, ended⟩ :=
    (takes_steps ⟨catalog, finish text⟩ _).1 s condition body denotes opens enough first [] shown
  refine parse_eq_ok.mpr ⟨[], bind_eq_ok.mpr ⟨token, first, pulled, ?_⟩⟩
  rw [same]
  exact bind_eq_ok.mpr ⟨_, second, taken,
    bind_eq_ok.mpr ⟨_, [], next_of_significant_nil ended, rfl⟩⟩

end Rulebase.Query
