import Rulebase.Proofs.Query.Embedding
import Rulebase.Proofs.Query.Figures
import Rulebase.Proofs.Query.Meaning
import Rulebase.Proofs.Query.Tiling

/-!
# Where a query is refused

Parsing takes tokens one after another and refuses a fault as soon as it is next. So whatever it complains of,
it complains of a token that it has met, at the offset of that token, and no fault stands before it. That is shown for
each part of the parsing, by how many tokens are left: they are never fewer than the steps allowed.
-/

namespace Rulebase.Query

theorem clean_nil : Clean [] :=
  fun _ => List.not_mem_nil

theorem clean_cons {token : Token} {ts : List Token} :
    Clean (token :: ts) ↔ (∀ fault, token.lexeme ≠ .fault fault) ∧ Clean ts := by
  by_cases feed : token.lexeme = .newline
  · simp [Clean, significant_cons, feed]
  · simp [Clean, significant_cons, feed, not_or, forall_and, eq_comm]

theorem clean_iff {ts : List Token} : Clean ts ↔ ∀ token ∈ ts, ∀ fault, token.lexeme ≠ .fault fault := by
  induction ts with
  | nil => simp [clean_nil]
  | cons token ts ih => rw [clean_cons, ih, List.forall_mem_cons]

theorem clean_concat {token : Token} {ts : List Token} :
    Clean (ts ++ [token]) ↔ Clean ts ∧ ∀ fault, token.lexeme ≠ .fault fault := by
  rw [clean_append, clean_cons, and_iff_left clean_nil]

/-- The tokens that are left when those before them, among which there is no fault, were taken. -/
def Left (whole ts : List Token) : Prop :=
  ∃ front, whole = front ++ ts ∧ Clean front

/-- A token can be met: no fault stands before it, and it is none itself. The end stands behind all other tokens. -/
def Met (setting : Setting) (whole : List Token) (token : Token) : Prop :=
  ∃ front back, whole ++ [setting.finish] = front ++ token :: back ∧ Clean (front ++ [token])

/-- Why tokens are refused: a fault is met, or there is a complaint at a token that is met, or a literal that is met has
a numeral beyond the limit. -/
inductive Refused (setting : Setting) (whole : List Token) : QueryError → Prop where
  | fault {fault : Fault} {offset : Nat} {ts : List Token} (left : Left whole (⟨.fault fault, offset⟩ :: ts)) :
      Refused setting whole (.fault fault offset)
  | malformed {complaint : Complaint} {token : Token} (met : Met setting whole token) :
      Refused setting whole (.malformed complaint token.offset)
  | numeral {token : Token} {word : String} {digits : Nat} (met : Met setting whole token)
      (literal : token.lexeme = .parameter word) (beyond : Text.numeralLimit < digits)
      (within : digits ≤ word.length) : Refused setting whole (.numeral (.tooLong digits))

/-- With no more than so many tokens left, a part of the parsing succeeds with something, or is refused. -/
def Runs {α : Type} (setting : Setting) (whole : List Token) (limit : Nat) (p : Parser α) (post : Nat → α → Prop) :
    Prop :=
  ∀ ts, Left whole ts → ts.length ≤ limit →
    (∃ a rest, p ts = .ok (a, rest) ∧ Left whole rest ∧ rest.length ≤ limit ∧ post rest.length a) ∨
      ∃ e, p ts = .error e ∧ Refused setting whole e

abbrev Keeps {α : Type} (setting : Setting) (whole : List Token) (limit : Nat) (p : Parser α) : Prop :=
  Runs setting whole limit p fun _ _ => True

variable {setting : Setting} {whole ts : List Token} {token : Token}

namespace Left

theorem all (whole : List Token) : Left whole whole :=
  ⟨[], rfl, clean_nil⟩

theorem tail (left : Left whole (token :: ts)) (proper : ∀ fault, token.lexeme ≠ .fault fault) : Left whole ts := by
  obtain ⟨front, rfl, clean⟩ := left
  exact ⟨front ++ [token], by simp, clean_concat.mpr ⟨clean, proper⟩⟩

theorem met (left : Left whole (token :: ts)) (proper : ∀ fault, token.lexeme ≠ .fault fault) :
    Met setting whole token := by
  obtain ⟨front, rfl, clean⟩ := left
  exact ⟨front, ts ++ [setting.finish], by simp, clean_concat.mpr ⟨clean, proper⟩⟩

theorem met_finish (left : Left whole []) (ends : setting.finish.lexeme = .finish) :
    Met setting whole setting.finish := by
  obtain ⟨front, rfl, clean⟩ := left
  exact ⟨front, [], by simp, clean_concat.mpr ⟨clean, by simp [ends]⟩⟩

end Left

namespace Runs

variable {α β : Type} {limit : Nat} {p : Parser α} {f : α → Parser β} {post : Nat → α → Prop}
  {last : Nat → β → Prop}

/-- Two parts in a row, the second one with what the first one leaves. -/
theorem bind (first : Runs setting whole limit p post)
    (second : ∀ fewer ≤ limit, ∀ a, post fewer a → Runs setting whole fewer (f a) last) :
    Runs setting whole limit (p >>= f) last := by
  intro ts left within
  have joined : (p >>= f) ts = p ts >>= fun r => f r.1 r.2 := rfl
  rcases first ts left within with ⟨a, rest, ran, left', within', holds⟩ | ⟨e, failed, refused⟩
  · rw [joined, ran]
    rcases second rest.length within' a holds rest left' (Nat.le_refl _) with
      ⟨b, further, ran', left'', within'', holds'⟩ | failed
    · exact Or.inl ⟨b, further, ran', left'', within''.trans within', holds'⟩
    · exact Or.inr failed
  · rw [joined, failed]
    exact Or.inr ⟨e, rfl, refused⟩

theorem pure {a : α} (holds : ∀ fewer ≤ limit, post fewer a) : Runs setting whole limit (Pure.pure a) post :=
  fun ts left within => Or.inl ⟨a, ts, rfl, left, within, holds ts.length within⟩

theorem fail {complaint : Complaint} (met : Met setting whole token) :
    Runs setting whole limit (fail complaint token.offset : Parser α) post :=
  fun _ _ _ => Or.inr ⟨_, rfl, .malformed met⟩

theorem lift {x : Except QueryError α} (fails : FailsWith (Refused setting whole) x) :
    Keeps setting whole limit (liftM x) := by
  intro ts left within
  cases x with
  | ok a => exact Or.inl ⟨a, ts, rfl, left, within, trivial⟩
  | error e => exact Or.inr ⟨e, rfl, fails e rfl⟩

end Runs

section Parts

variable {limit : Nat}

/-- The next token is met, and unless it is the end, fewer tokens are left. -/
theorem runs_next (ends : setting.finish.lexeme = .finish) :
    Runs setting whole limit (next setting) fun fewer token =>
      Met setting whole token ∧ (token.lexeme = .finish ∨ fewer < limit) := by
  intro ts left within
  induction ts with
  | nil => exact Or.inl ⟨setting.finish, [], rfl, left, within, left.met_finish ends, Or.inl ends⟩
  | cons token ts ih =>
    rw [List.length_cons] at within
    unfold next
    split
    next feed => exact ih (left.tail (by simp [feed])) (by omega)
    next fault faulty =>
      obtain ⟨lexeme, offset⟩ := token
      cases faulty
      exact Or.inr ⟨_, rfl, .fault left⟩
    next feedless faultless =>
      have proper : ∀ fault, token.lexeme ≠ .fault fault := faultless
      exact Or.inl ⟨token, ts, rfl, left.tail proper, by omega, left.met proper, Or.inr (by omega)⟩

/-- What is expected is found in a token that is met, and fewer tokens are left. -/
theorem runs_expect {α : Type} {wanted : Wanted} {pick : Lexeme → Option α} (ends : setting.finish.lexeme = .finish)
    (never : pick .finish = none) :
    Runs setting whole limit (expect setting wanted pick) fun fewer found =>
      fewer < limit ∧ ∃ token a, Met setting whole token ∧ pick token.lexeme = some a ∧
        found = (a, token.offset) := by
  unfold expect
  refine (runs_next ends).bind fun fewer _ => ?_
  rintro token ⟨met, progress⟩
  cases picked : pick token.lexeme with
  | none => exact .fail met
  | some a =>
    have less : fewer < limit := progress.resolve_left fun atEnd => by simp [atEnd, never] at picked
    exact .pure fun fewer' within => ⟨by omega, token, a, met, picked, rfl⟩

/-- What a literal is refused for is complained of at the literal, unless a numeral in it is beyond the limit. -/
theorem fails_denoted {word : String} (met : Met setting whole token) (literal : token.lexeme = .parameter word) :
    FailsWith (Refused setting whole) (denoted setting.catalog word token.offset) := by
  intro e failed
  unfold denoted at failed
  dsimp only at failed
  split at failed
  · cases failed
    exact .malformed met
  · cases built : (Literal.ofChars (Text.trim word.toList)).build with
    | ok found =>
      rw [built] at failed
      cases found with
      | inl leaf => cases failed
      | inr name =>
        dsimp only at failed
        split at failed
        · cases failed
        · cases failed
          exact .malformed met
    | error cause =>
      rw [built] at failed
      cases fails_literal _ cause built with
      | invalid writable =>
        cases failed
        exact .malformed met
      | @numeral cause limit =>
        cases failed
        have limited := limit trivial
        cases cause with
        | malformed base text => cases limited
        | tooLarge => cases limited
        | tooLong digits =>
          have shorter := (Text.trim_sublist word.toList).length_le
          rw [String.length_toList] at shorter
          exact .numeral met literal limited.1 (limited.2.trans shorter)

theorem fails_sideFor (object : Object) (word : String) (met : Met setting whole token) :
    FailsWith (Refused setting whole) (sideFor object word token.offset) := by
  intro e failed
  unfold sideFor at failed
  split at failed
  · cases failed
    exact .malformed met
  · split at failed
    · split at failed
      · cases failed
      · cases failed
        exact .malformed met
    · split at failed
      · cases failed
        exact .malformed met
      · cases failed

theorem keeps_quotedObject (ends : setting.finish.lexeme = .finish) :
    Keeps setting whole limit (quotedObject setting) := by
  unfold quotedObject
  refine (runs_expect ends rfl).bind fun _ _ _ _ => ?_
  refine (runs_expect ends rfl).bind fun _ _ => ?_
  rintro _ ⟨_, token, word, met, picked, rfl⟩
  refine (runs_expect ends rfl).bind fun _ _ _ _ => ?_
  exact .lift (fails_denoted met (parameter?_eq_some.mp picked))

theorem keeps_selector (ends : setting.finish.lexeme = .finish) (object : Object) :
    Keeps setting whole limit (selector setting object) := by
  unfold selector
  refine (runs_next ends).bind fun _ _ => ?_
  rintro token ⟨met, _⟩
  split
  · exact .pure fun _ _ => trivial
  · refine (runs_expect ends rfl).bind fun _ _ => ?_
    rintro _ ⟨_, token, word, met, _, rfl⟩
    dsimp only
    split
    · refine (runs_expect ends rfl).bind fun _ _ => ?_
      rintro _ ⟨_, token, side, met, _, rfl⟩
      refine (runs_expect ends rfl).bind fun _ _ _ _ => ?_
      refine (runs_expect ends rfl).bind fun _ _ _ _ => ?_
      exact .lift (fails_sideFor object side met)
    · exact .fail met
  · refine (runs_expect ends rfl).bind fun _ _ => ?_
    rintro _ ⟨_, token, side, met, _, rfl⟩
    refine (runs_expect ends rfl).bind fun _ _ _ _ => ?_
    exact .lift (fails_sideFor object side met)
  · exact .fail met

theorem keeps_atom (ends : setting.finish.lexeme = .finish) (make : Object → Side → Atom) :
    Keeps setting whole limit (atom setting make) := by
  unfold atom
  refine (keeps_quotedObject ends).bind fun _ _ object _ => ?_
  exact (keeps_selector ends object).bind fun _ _ _ _ => .pure fun _ _ => trivial

end Parts

def KeepsSteps (setting : Setting) (whole : List Token) (steps : Nat) : Prop :=
  ∀ limit < steps, Keeps setting whole limit (expression setting steps) ∧
    ∀ junction first, Keeps setting whole limit (operands setting junction first steps)

theorem keeps_expression {steps limit : Nat} (ends : setting.finish.lexeme = .finish)
    (keeps : KeepsSteps setting whole steps) (within : limit < steps + 1) :
    Keeps setting whole limit (expression setting (steps + 1)) := by
  unfold expression
  refine (runs_expect ends rfl).bind fun fewer _ => ?_
  rintro _ ⟨progress, token, word, met, _, rfl⟩
  dsimp only
  have row (junction : Junction) : Keeps setting whole fewer (operands setting junction true steps) :=
    (keeps fewer (by omega)).2 junction true
  split
  · exact keeps_atom ends _
  · exact keeps_atom ends _
  · exact (row .all).bind fun _ _ _ _ => .pure fun _ _ => trivial
  · exact (row .any).bind fun _ _ _ _ => .pure fun _ _ => trivial
  · refine (runs_expect ends rfl).bind fun fewer' _ => ?_
    rintro _ ⟨progress', _⟩
    refine (keeps fewer' (by omega)).1.bind fun _ _ _ _ => ?_
    exact (runs_expect ends rfl).bind fun _ _ _ _ => .pure fun _ _ => trivial
  · exact .fail met

theorem keeps_operands {steps limit : Nat} (ends : setting.finish.lexeme = .finish)
    (keeps : KeepsSteps setting whole steps) (within : limit < steps + 1) (junction : Junction) (first : Bool) :
    Keeps setting whole limit (operands setting junction first (steps + 1)) := by
  unfold operands
  refine (runs_next ends).bind fun fewer _ => ?_
  rintro token ⟨met, progress⟩
  split
  next opening =>
    have less : fewer < limit := progress.resolve_left fun atEnd => by simp [atEnd] at opening
    refine (keeps fewer (by omega)).1.bind fun fewer' _ _ _ => ?_
    exact ((keeps fewer' (by omega)).2 junction false).bind fun _ _ _ _ => .pure fun _ _ => trivial
  · split
    · exact .fail met
    · exact .pure fun _ _ => trivial
  · exact .fail met

theorem keeps_steps (ends : setting.finish.lexeme = .finish) (steps : Nat) : KeepsSteps setting whole steps := by
  induction steps with
  | zero => exact fun limit within => absurd within (Nat.not_lt_zero limit)
  | succ steps ih =>
    exact fun limit within => ⟨keeps_expression ends ih within, fun junction first =>
      keeps_operands ends ih within junction first⟩

/-- The steps allowed for as many tokens as there are never run out. -/
theorem keeps_query (ends : setting.finish.lexeme = .finish) :
    Keeps setting whole whole.length (query setting whole.length) := by
  unfold query
  refine (runs_next ends).bind fun fewer _ => ?_
  rintro token ⟨met, progress⟩
  split
  · exact .fail met
  next opening =>
    have less : fewer < whole.length := progress.resolve_left fun atEnd => by simp [atEnd] at opening
    refine (keeps_steps ends whole.length fewer less).1.bind fun _ _ condition _ => ?_
    refine (runs_next ends).bind fun _ _ => ?_
    rintro token ⟨met, _⟩
    split
    · exact .pure fun _ _ => trivial
    · exact .fail met
  · exact .fail met

section Text

variable {catalog : Option Catalog} {text : String} {e : QueryError}

/-- A text that does not parse has its tokens refused. -/
theorem refused_of_parse (failed : parse catalog text = .error e) :
    Refused ⟨catalog, finish text⟩ (tokens text) e := by
  have ran : Keeps ⟨catalog, finish text⟩ (tokens text) (tokens text).length _ := keeps_query rfl
  simp only [parse, StateT.run'] at failed
  rcases ran (tokens text) (.all _) (Nat.le_refl _) with ⟨condition, rest, found, _⟩ | ⟨cause, found, refused⟩
  · rw [found] at failed
    cases failed
  · rw [found] at failed
    cases failed
    exact refused

theorem offset_le_of_mem_tokenize (found : token ∈ tokenize text) : token.offset ≤ text.length := by
  rcases List.mem_append.mp found with inside | atEnd
  · have place : Mode.plain.At text.toList 0 text.toList := ⟨rfl, rfl, Nat.zero_add _⟩
    have tiles : Tiles text.toList false 0 (tokens text) := Tiles.scan .plain place
    have bounds := tiles.inside token inside
    rw [String.length_toList] at bounds
    exact bounds.2.1.trans bounds.2.2
  · cases List.mem_singleton.mp atEnd
    exact Nat.le_refl _

theorem exists_append_of_clean {front back before after : List Token} {fault : Fault} {offset : Nat}
    (same : front ++ back = before ++ ⟨.fault fault, offset⟩ :: after) (clean : Clean front) :
    ∃ more, before = front ++ more := by
  rcases List.append_eq_append_iff.mp same with ⟨more, joined, _⟩ | ⟨more, rfl, rest⟩
  · exact ⟨more, joined⟩
  · cases more with
    | nil => exact ⟨[], by simp⟩
    | cons token more =>
      cases (List.cons_eq_cons.mp rest).1
      exact absurd (clean_append.mp clean).2 not_clean_of_fault

/-- There is one first fault. -/
theorem first_fault_unique {before after before' after' : List Token} {fault fault' : Fault} {offset offset' : Nat}
    (same : before ++ ⟨.fault fault, offset⟩ :: after = before' ++ ⟨.fault fault', offset'⟩ :: after')
    (clean : Clean before) (clean' : Clean before') : fault = fault' ∧ offset = offset' := by
  obtain ⟨more, joined⟩ := exists_append_of_clean same clean
  obtain ⟨more', joined'⟩ := exists_append_of_clean same.symm clean'
  have level : before = before' := by
    have lengths := congrArg List.length joined'
    rw [joined, List.length_append, List.length_append] at lengths
    have nothing : more = [] := List.eq_nil_of_length_eq_zero (by omega)
    rw [joined, nothing, List.append_nil]
  rw [level] at same
  have heads := (List.cons_eq_cons.mp (List.append_cancel_left same)).1
  simpa using heads

theorem Met.mem (met : Met ⟨catalog, finish text⟩ (tokens text) token) : token ∈ tokenize text := by
  obtain ⟨front, back, same, _⟩ := met
  have whole : tokenize text = front ++ token :: back := same
  simp [whole]

theorem Left.tokenize_eq {fault : Fault} {offset : Nat} (left : Left (tokens text) (⟨.fault fault, offset⟩ :: ts)) :
    ∃ front, tokenize text = front ++ ⟨.fault fault, offset⟩ :: (ts ++ [finish text]) ∧ Clean front := by
  obtain ⟨front, same, clean⟩ := left
  exact ⟨front, by rw [tokenize, same, List.append_assoc, List.cons_append], clean⟩

/-- A literal among tokens is long enough for a numeral of so many digits, which are more than the limit. -/
def BeyondLimit (ts : List Token) (digits : Nat) : Prop :=
  Text.numeralLimit < digits ∧ ∃ token ∈ ts, ∃ word, token.lexeme = .parameter word ∧ digits ≤ word.length

/-- What is refused is refused within the text. -/
theorem Refused.within (refused : Refused ⟨catalog, finish text⟩ (tokens text) e) :
    (∃ fault offset, e = .fault fault offset ∧ offset ≤ text.length) ∨
      (∃ complaint offset, e = .malformed complaint offset ∧ offset ≤ text.length) ∨
      ∃ digits, e = .numeral (.tooLong digits) ∧ BeyondLimit (tokenize text) digits := by
  cases refused with
  | @fault fault offset ts left =>
    obtain ⟨front, same, _⟩ := left.tokenize_eq
    have listed : ⟨.fault fault, offset⟩ ∈ tokenize text := by simp [same]
    exact Or.inl ⟨fault, offset, rfl, offset_le_of_mem_tokenize listed⟩
  | malformed met => exact Or.inr (Or.inl ⟨_, _, rfl, offset_le_of_mem_tokenize met.mem⟩)
  | numeral met literal beyond within =>
    exact Or.inr (Or.inr ⟨_, rfl, beyond, _, met.mem, _, literal, within⟩)

theorem Met.mem_before (met : Met ⟨catalog, finish text⟩ (tokens text) token) {before after : List Token}
    {fault : Fault} {offset : Nat} (same : tokenize text = before ++ ⟨.fault fault, offset⟩ :: after) :
    token ∈ before := by
  obtain ⟨front, back, same', clean⟩ := met
  have joined : (front ++ [token]) ++ back = before ++ ⟨.fault fault, offset⟩ :: after := by
    rw [List.append_assoc, List.singleton_append]
    exact same'.symm.trans same
  obtain ⟨more, rfl⟩ := exists_append_of_clean joined clean
  simp

/-- Where there is a fault, the first one is refused, or what stands before it. -/
theorem Refused.before (refused : Refused ⟨catalog, finish text⟩ (tokens text) e) {before after : List Token}
    {fault : Fault} {offset : Nat} (same : tokenize text = before ++ ⟨.fault fault, offset⟩ :: after)
    (clean : Clean before) :
    e = .fault fault offset ∨ (∃ complaint, ∃ token ∈ before, e = .malformed complaint token.offset) ∨
      ∃ digits, e = .numeral (.tooLong digits) ∧ BeyondLimit before digits := by
  cases refused with
  | fault left =>
    obtain ⟨front, same', clean'⟩ := left.tokenize_eq
    obtain ⟨rfl, rfl⟩ := first_fault_unique (same.symm.trans same') clean clean'
    exact Or.inl rfl
  | malformed met => exact Or.inr (Or.inl ⟨_, _, met.mem_before same, rfl⟩)
  | numeral met literal beyond within =>
    exact Or.inr (Or.inr ⟨_, rfl, beyond, _, met.mem_before same, _, literal, within⟩)

/-- A text parses, or it is refused at an offset within the text, for a fault or with a complaint, or else because a
numeral in a literal is beyond the limit. Where its tokens have a fault, it does not parse: the first fault is refused,
or there is a complaint at the offset of a token that stands before the first fault, or else a literal that stands
before it has a numeral beyond the limit. Where they have none, no fault is refused. -/
theorem parse_refusal (catalog : Option Catalog) (text : String) :
    ((∃ condition, parse catalog text = .ok condition) ∨
      (∃ fault offset, parse catalog text = .error (.fault fault offset) ∧ offset ≤ text.length) ∨
      (∃ complaint offset, parse catalog text = .error (.malformed complaint offset) ∧ offset ≤ text.length) ∨
      ∃ digits, parse catalog text = .error (.numeral (.tooLong digits)) ∧ BeyondLimit (tokenize text) digits) ∧
    (∀ before fault offset after, tokenize text = before ++ ⟨.fault fault, offset⟩ :: after →
      (∀ token ∈ before, ∀ other, token.lexeme ≠ .fault other) →
        parse catalog text = .error (.fault fault offset) ∨
        (∃ complaint, ∃ token ∈ before, parse catalog text = .error (.malformed complaint token.offset)) ∨
        ∃ digits, parse catalog text = .error (.numeral (.tooLong digits)) ∧ BeyondLimit before digits) ∧
    ((∀ token ∈ tokenize text, ∀ fault, token.lexeme ≠ .fault fault) →
      ∀ fault offset, parse catalog text ≠ .error (.fault fault offset)) := by
  cases parsed : parse catalog text with
  | ok condition =>
    refine ⟨Or.inl ⟨condition, rfl⟩, fun before fault offset after same _ => ?_, fun _ _ _ => nofun⟩
    obtain ⟨s, reads, _⟩ := reads_of_parse parsed
    exact absurd rfl (reads.clean ⟨.fault fault, offset⟩ (by simp [same]) fault)
  | error e =>
    have refused := refused_of_parse parsed
    simp only [reduceCtorEq, exists_false, false_or, Except.error.injEq]
    refine ⟨refused.within, fun before fault offset after same clean => refused.before same (clean_iff.mpr clean), ?_⟩
    intro clean fault offset failed
    cases failed
    cases refused with
    | fault left =>
      obtain ⟨front, same, _⟩ := left.tokenize_eq
      exact absurd rfl (clean ⟨.fault fault, offset⟩ (by simp [same]) fault)

/-- The keyword is complained of, for the fault behind it is never next. -/
example : parse none "(have @)" = .error (.malformed (.unknownKeyword "have") 1) := by
  cbv

end Text

end Rulebase.Query
