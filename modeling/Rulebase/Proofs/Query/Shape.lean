import Mathlib.Data.List.Chain
import Mathlib.Data.List.TakeWhile
import Rulebase.Proofs.Query.Layout

/-!
# The shape of the tokens of a text

A keyword, or the fault that one is missing, stands behind every opening parenthesis and nowhere else. Quotes stand in
pairs around a literal, and only the last one can lack its partner. All other words are as long as they can be, and
so are keywords. That is shown by cutting the text where the scanner does: a piece that begins between tokens gives
tokens that belong together, and the text behind it is shorter.
-/

namespace Rulebase.Query

/-- Characters of a class stand in a text at an offset, and the ones next to them, if any, are of another class. -/
structure IsRun (p : Char → Bool) (text : List Char) (start : Nat) (run : List Char) : Prop where
  some : run ≠ []
  all : ∀ c ∈ run, p c = true
  placed : ∃ before after, text = before ++ run ++ after ∧ before.length = start ∧
    (∀ c ∈ before.getLast?, p c = false) ∧ ∀ c ∈ after.head?, p c = false

/-- What stands behind an opening parenthesis: a keyword, or the fault that there is none. -/
def Lexeme.IsHead (lexeme : Lexeme) : Prop :=
  (∃ word, lexeme = .keyword word) ∨ ∃ next, lexeme = .fault (.missingKeyword next)

/-- The second of two tokens heads an expression just when the first one opens it. -/
def Token.Opens (token next : Token) : Prop :=
  token.lexeme = .leftParen ↔ next.lexeme.IsHead

/-- A token that is neither a quote nor the fault of one; if it is a word, then it is as long as it can be. -/
def Token.Unquoted (text : List Char) (token : Token) : Prop :=
  token.lexeme ≠ .quote ∧ token.lexeme ≠ .fault .unclosedQuote ∧
    ∀ word, token.lexeme = .parameter word → IsRun isWordChar text token.offset word.toList

/-- Quotes stand in pairs around a literal that has none, and only the last one may lack its partner. -/
inductive Paired (text : List Char) : List Token → Prop where
  | nil : Paired text []
  | other {token : Token} {ts : List Token} (unquoted : token.Unquoted text) (rest : Paired text ts) :
      Paired text (token :: ts)
  | quoted {i j k : Nat} {literal : String} {ts : List Token} (plain : '"' ∉ literal.toList) (rest : Paired text ts) :
      Paired text (⟨.quote, i⟩ :: ⟨.parameter literal, j⟩ :: ⟨.quote, k⟩ :: ts)
  | unclosed {i j : Nat} : Paired text [⟨.quote, i⟩, ⟨.fault .unclosedQuote, j⟩]

structure Shape (text : List Char) (tokens : List Token) : Prop where
  /-- A head follows every opening parenthesis and nothing else. -/
  opening : tokens.IsChain Token.Opens
  first : ∀ token ∈ tokens.head?, ¬ token.lexeme.IsHead
  last : ∀ token ∈ tokens.getLast?, token.lexeme ≠ .leftParen
  keyword : ∀ word start, ⟨.keyword word, start⟩ ∈ tokens → IsRun isKeywordChar text start word.toList
  quotes : Paired text tokens

/-- A token that stands by itself: a closing parenthesis, a line feed or a stray character. -/
def Lexeme.IsMark (lexeme : Lexeme) : Prop :=
  lexeme = .rightParen ∨ lexeme = .newline ∨ ∃ c, lexeme = .fault (.stray c)

/-- Tokens that belong together follow one another. -/
inductive Shaped (text : List Char) : List Token → Prop where
  | nil : Shaped text []
  | mark {token : Token} {ts : List Token} (mark : token.lexeme.IsMark) (rest : Shaped text ts) :
      Shaped text (token :: ts)
  | word {word : String} {start : Nat} {ts : List Token} (run : IsRun isWordChar text start word.toList)
      (rest : Shaped text ts) : Shaped text (⟨.parameter word, start⟩ :: ts)
  | opening {word : String} {i start : Nat} {ts : List Token} (run : IsRun isKeywordChar text start word.toList)
      (rest : Shaped text ts) : Shaped text (⟨.leftParen, i⟩ :: ⟨.keyword word, start⟩ :: ts)
  | missing {next : Option Char} {i j : Nat} {ts : List Token} (rest : Shaped text ts) :
      Shaped text (⟨.leftParen, i⟩ :: ⟨.fault (.missingKeyword next), j⟩ :: ts)
  | quoted {i j k : Nat} {literal : String} {ts : List Token} (plain : '"' ∉ literal.toList)
      (rest : Shaped text ts) :
      Shaped text (⟨.quote, i⟩ :: ⟨.parameter literal, j⟩ :: ⟨.quote, k⟩ :: ts)
  | unclosed {i j : Nat} : Shaped text [⟨.quote, i⟩, ⟨.fault .unclosedQuote, j⟩]

theorem Lexeme.IsMark.not_isHead {lexeme : Lexeme} (mark : lexeme.IsMark) : ¬ lexeme.IsHead := by
  rcases mark with rfl | rfl | ⟨c, rfl⟩ <;> simp [IsHead]

namespace Shaped

variable {text : List Char} {ts : List Token} {token : Token}

theorem not_isHead_of_head (shaped : Shaped text ts) : ∀ token ∈ ts.head?, ¬ token.lexeme.IsHead := by
  cases shaped with
  | nil => nofun
  | mark mark rest =>
    rintro _ ⟨⟩
    exact mark.not_isHead
  | _ =>
    rintro _ ⟨⟩
    simp [Lexeme.IsHead]

/-- A token that opens nothing may stand before the others. -/
theorem isChain_cons {t : Token} (other : t.lexeme ≠ .leftParen) (first : ∀ next ∈ ts.head?, ¬ next.lexeme.IsHead)
    (chain : ts.IsChain Token.Opens) : (t :: ts).IsChain Token.Opens :=
  List.isChain_cons.mpr ⟨fun next found => iff_of_false other (first next found), chain⟩

/-- An opening parenthesis and a head may stand before the others. -/
theorem isChain_opening {i : Nat} {head : Token} (isHead : head.lexeme.IsHead)
    (first : ∀ next ∈ ts.head?, ¬ next.lexeme.IsHead) (chain : ts.IsChain Token.Opens) :
    (⟨.leftParen, i⟩ :: head :: ts).IsChain Token.Opens := by
  have other : head.lexeme ≠ .leftParen := by
    rcases isHead with ⟨word, same⟩ | ⟨next, same⟩ <;> simp [same]
  exact .cons_cons (iff_of_true rfl isHead) (isChain_cons other first chain)

theorem isChain (shaped : Shaped text ts) (last : Token) (other : ¬ last.lexeme.IsHead) :
    (ts ++ [last]).IsChain Token.Opens := by
  have first {ts : List Token} (rest : Shaped text ts) : ∀ next ∈ (ts ++ [last]).head?, ¬ next.lexeme.IsHead := by
    rw [List.head?_append]
    intro next found
    rcases Option.or_eq_some_iff.mp found with front | ⟨_, same⟩
    · exact rest.not_isHead_of_head next front
    · cases same
      exact other
  induction shaped with
  | nil => exact .singleton last
  | mark mark rest ih =>
    refine isChain_cons (fun same => ?_) (first rest) ih
    simp [Lexeme.IsMark, same] at mark
  | word run rest ih => exact isChain_cons nofun (first rest) ih
  | opening run rest ih => exact isChain_opening (Or.inl ⟨_, rfl⟩) (first rest) ih
  | missing rest ih => exact isChain_opening (Or.inr ⟨_, rfl⟩) (first rest) ih
  | @quoted i j k literal ts plain rest ih =>
    have closing := isChain_cons (t := ⟨.quote, k⟩) nofun (first rest) ih
    have inner := isChain_cons (t := ⟨.parameter literal, j⟩) nofun (by simp [Lexeme.IsHead]) closing
    exact isChain_cons nofun (by simp [Lexeme.IsHead]) inner
  | @unclosed i j =>
    have fault := isChain_cons (t := ⟨.fault .unclosedQuote, j⟩) nofun (by simpa using other) (.singleton last)
    exact isChain_cons nofun (by simp [Lexeme.IsHead]) fault

theorem isRun_of_keyword (shaped : Shaped text ts) {word : String} {start : Nat}
    (found : ⟨.keyword word, start⟩ ∈ ts) : IsRun isKeywordChar text start word.toList := by
  induction shaped with
  | nil => cases found
  | mark mark rest ih =>
    rcases List.mem_cons.mp found with rfl | found
    · exact absurd (Or.inl ⟨word, rfl⟩) mark.not_isHead
    · exact ih found
  | opening run rest ih =>
    simp only [List.mem_cons, Token.mk.injEq, Lexeme.keyword.injEq, reduceCtorEq, false_and, false_or] at found
    rcases found with ⟨rfl, rfl⟩ | found
    · exact run
    · exact ih found
  | word run rest ih => exact ih (by simpa using found)
  | missing rest ih => exact ih (by simpa using found)
  | quoted plain rest ih => exact ih (by simpa using found)
  | unclosed => simp at found

theorem paired (shaped : Shaped text ts) : Paired text ts := by
  induction shaped with
  | nil => exact .nil
  | mark mark rest ih =>
    refine .other ?_ ih
    rcases mark with same | same | ⟨c, same⟩ <;> simp [Token.Unquoted, same]
  | word run rest ih =>
    refine .other ⟨nofun, nofun, ?_⟩ ih
    rintro _ ⟨⟩
    exact run
  | opening run rest ih => exact .other ⟨nofun, nofun, nofun⟩ (.other ⟨nofun, nofun, nofun⟩ ih)
  | missing rest ih => exact .other ⟨nofun, nofun, nofun⟩ (.other ⟨nofun, nofun, nofun⟩ ih)
  | quoted plain rest ih => exact .quoted plain ih
  | unclosed => exact .unclosed

theorem shape (shaped : Shaped text ts) : Shape text ts := by
  have chain := List.isChain_append.mp (shaped.isChain ⟨.finish, 0⟩ (by simp [Lexeme.IsHead]))
  refine ⟨chain.1, shaped.not_isHead_of_head, fun token found opens => ?_, fun word start => shaped.isRun_of_keyword,
    shaped.paired⟩
  have head := (chain.2.2 token found _ rfl).mp opens
  simp [Lexeme.IsHead] at head

end Shaped

section Scan

variable {p : Char → Bool} {text before cs : List Char}

/-- Characters begin with some of a class, and what follows does not begin with one. -/
theorem exists_span (p : Char → Bool) (cs : List Char) :
    ∃ run rest, cs = run ++ rest ∧ (∀ c ∈ run, p c = true) ∧ ∀ c ∈ rest.head?, p c = false := by
  refine ⟨cs.takeWhile p, cs.dropWhile p, List.takeWhile_append_dropWhile.symm,
    fun c found => List.mem_takeWhile_imp found, fun c found => ?_⟩
  have next := List.head?_dropWhile_not p cs
  rwa [show (cs.dropWhile p).head? = some c from found] at next

/-- Characters that begin with one of a class begin with a run of it. -/
theorem exists_run {c : Char} (proper : p c = true) (cs : List Char) :
    ∃ run rest, c :: cs = run ++ rest ∧ run ≠ [] ∧ (∀ c ∈ run, p c = true) ∧ ∀ c ∈ rest.head?, p c = false := by
  obtain ⟨run, rest, split, all, next⟩ := exists_span p cs
  exact ⟨c :: run, rest, congrArg (List.cons c) split, List.cons_ne_nil c run,
    List.forall_mem_cons.mpr ⟨proper, all⟩, next⟩

/-- No word goes on from some characters to the ones behind them. -/
def Cut (before cs : List Char) : Prop :=
  (∀ c ∈ before.getLast?, isWordChar c = false) ∨ ∀ c ∈ cs.head?, isWordChar c = false

theorem cut_concat {c : Char} (other : isWordChar c = false) : Cut (before ++ [c]) cs := by
  refine Or.inl fun d found => ?_
  cases List.getLast?_concat.symm.trans found
  exact other

theorem IsSpacing.last_other {gap : List Char} (spacing : IsSpacing gap) (before : List Char) :
    ∀ c ∈ (before ++ '(' :: gap).getLast?, isKeywordChar c = false := by
  intro c found
  rw [List.getLast?_append_cons] at found
  rcases List.mem_cons.mp (List.mem_of_getLast? found) with rfl | inside
  · rfl
  · rcases spacing c inside with blank | rfl
    · simp [isKeywordChar, blank]
    · rfl

namespace Shaped

section Step

variable (further : ∀ front back, front ++ back = text → back.length ≤ cs.length → Cut front back →
  Shaped text (scan .plain front.length back))

include further

/-- Behind an opening parenthesis a keyword is found, or it is missing. -/
theorem scan_awaiting (whole : before ++ '(' :: cs = text) :
    Shaped text (⟨.leftParen, before.length⟩ :: scan .awaiting (before.length + 1) cs) := by
  obtain ⟨gap, rest, rfl, blank, next⟩ := exists_span (fun c => isGap c || c == '\n') cs
  have spacing : IsSpacing gap := fun c found => by simpa using blank c found
  have place : before.length + 1 + gap.length = (before ++ '(' :: gap).length := by
    simp only [List.length_append, List.length_cons]
    omega
  rw [scan_awaiting_spacing spacing, place]
  cases rest with
  | nil => exact .missing .nil
  | cons c rest =>
    have solid : ¬ (isGap c = true ∨ c = '\n') := by simpa using next c rfl
    cases proper : isKeywordChar c with
    | false =>
      rw [scan_missing solid proper]
      refine .missing (further _ _ (by simp [← whole]) (by simp) (Or.inr ?_))
      rintro _ ⟨⟩
      exact isWordChar_eq_false proper
    | true =>
      obtain ⟨word, tail, split, some, all, stop⟩ := exists_run proper rest
      rw [split] at whole further ⊢
      have run : IsRun isKeywordChar text (before ++ '(' :: gap).length word :=
        ⟨some, all, _, tail, by simp [← whole], rfl, spacing.last_other before, stop⟩
      rw [scan_awaiting_word some all, scan_of_head_endsAt stop, ← List.length_append]
      have shorter : tail.length ≤ (gap ++ (word ++ tail)).length := by
        simp only [List.length_append]
        omega
      refine .opening ?_ (further _ _ (by simp [← whole]) shorter (Or.inr fun d found => ?_))
      · simpa [wordOf] using run
      · exact isWordChar_eq_false (stop d found)

/-- Behind a quote there is a literal and its partner, or the text ends without one. -/
theorem scan_quote (whole : before ++ '"' :: cs = text) :
    Shaped text (⟨.quote, before.length⟩ :: scan (.quoted (before.length + 1) []) (before.length + 1) cs) := by
  obtain ⟨literal, rest, rfl, other, next⟩ := exists_span (· != '"') cs
  have plain : '"' ∉ literal := fun found => by simpa using other _ found
  cases rest with
  | nil =>
    have all : ∀ c ∈ literal, c ≠ '"' := fun c found => by simpa using other c found
    rw [scan_append (.quoted (before.length + 1)) (fun _ _ _ _ => scan_quoted_longer) all]
    exact .unclosed
  | cons c rest =>
    have quote : c = '"' := by simpa using next c rfl
    subst quote
    rw [scan_literal plain]
    refine .quoted (by simpa using plain) ?_
    have behind := further (before ++ '"' :: (literal ++ ['"'])) rest (by simp [← whole]) (by simp; omega)
    rw [show before.length + 1 + literal.length + 1 = (before ++ '"' :: (literal ++ ['"'])).length by
      simp only [List.length_append, List.length_cons, List.length_nil]; omega]
    refine behind ?_
    rw [← List.cons_append, ← List.append_assoc]
    exact cut_concat rfl

/-- A word is read as far as it goes. -/
theorem scan_word {c : Char} (whole : before ++ c :: cs = text) (wordy : isWordChar c = true)
    (cut : Cut before (c :: cs)) : Shaped text (Query.scan .plain before.length (c :: cs)) := by
  obtain ⟨word, tail, split, some, all, stop⟩ := exists_run wordy cs
  have apart : ∀ d ∈ before.getLast?, isWordChar d = false := by
    refine cut.resolve_right fun other => ?_
    exact absurd wordy (Bool.eq_false_iff.mp (other c rfl))
  have shorter : tail.length ≤ cs.length := by
    have lengths := congrArg List.length split
    have positive := List.length_pos_iff.mpr some
    rw [List.length_cons, List.length_append] at lengths
    omega
  rw [split] at whole ⊢
  rw [scan_plain_word some all, scan_of_head_endsAt stop, ← List.length_append]
  refine .word ?_ (further _ _ (by simp [← whole]) shorter (Or.inr stop))
  have run : IsRun isWordChar text before.length word :=
    ⟨some, all, before, tail, by simp [← whole], rfl, apart, stop⟩
  simpa [wordOf] using run

end Step

/-- Where a word does not go on, what the scanner gives from there on has the shape of tokens. -/
theorem scan (cut : Cut before cs) : Shaped (before ++ cs) (Query.scan .plain before.length cs) := by
  -- The text behind a piece is shorter than the piece with it, so the induction is on the length.
  generalize length : cs.length = n
  induction n using Nat.strongRecOn generalizing before cs with
  | ind n ih =>
    cases cs with
    | nil => exact .nil
    | cons c cs =>
      have further (front back : List Char) (same : front ++ back = before ++ c :: cs)
          (shorter : back.length ≤ cs.length) (cut : Cut front back) :
          Shaped (before ++ c :: cs) (Query.scan .plain front.length back) := by
        rw [← same]
        exact ih back.length (by rw [← length, List.length_cons]; omega) cut rfl
      have next (other : isWordChar c = false) :
          Shaped (before ++ c :: cs) (Query.scan .plain (before.length + 1) cs) := by
        have behind := further (before ++ [c]) cs (List.append_assoc before [c] cs) (Nat.le_refl _) (cut_concat other)
        rwa [List.length_append, List.length_singleton] at behind
      rcases char_cases c with gap | rfl | rfl | rfl | rfl | wordy | ⟨proper, other⟩
      · rw [scan_gap gap]
        exact next (isWordChar_eq_false (by simp [isKeywordChar, gap]))
      · exact .mark (Or.inr (Or.inl rfl)) (next rfl)
      · exact scan_awaiting further rfl
      · exact .mark (Or.inl rfl) (next rfl)
      · exact scan_quote further rfl
      · exact scan_word further rfl wordy cut
      · rw [scan_stray proper other]
        exact .mark (Or.inr (Or.inr ⟨c, rfl⟩)) (next other)

end Shaped

end Scan

/-- Before its end, a text has tokens of the one shape. A keyword or the fault that it is missing stands behind every
opening parenthesis and nowhere else. Quotes stand in pairs around a literal that has none, and only the last one may
be unclosed, which is then the last fault. Every other word and every keyword is as long as it can be. -/
theorem tokenize_shape (text : String) :
    ∃ found, tokenize text = found ++ [⟨.finish, text.length⟩] ∧ (∀ token ∈ found, token.lexeme ≠ .finish) ∧
      Shape text.toList found := by
  have start : Cut [] text.toList := Or.inl nofun
  exact ⟨tokens text, rfl, scan_ne_finish .plain 0 text.toList, (Shaped.scan start).shape⟩

/-- A keyword over a line feed, a missing one, a stray character between words, and quotes next to each other. -/
example : tokenize "(\nhas)(\"\"a@b\"c" =
    [⟨.leftParen, 0⟩, ⟨.keyword "has", 2⟩, ⟨.rightParen, 5⟩, ⟨.leftParen, 6⟩,
      ⟨.fault (.missingKeyword (some '"')), 7⟩, ⟨.quote, 7⟩, ⟨.parameter "", 8⟩, ⟨.quote, 8⟩, ⟨.parameter "a", 9⟩,
      ⟨.fault (.stray '@'), 10⟩, ⟨.parameter "b", 11⟩, ⟨.quote, 12⟩, ⟨.fault .unclosedQuote, 13⟩, ⟨.finish, 14⟩] := by
  decide

end Rulebase.Query
