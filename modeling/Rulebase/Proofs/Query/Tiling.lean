import Rulebase.Proofs.Query.Scanning

/-!
# Tokens tile the text

Every token stands for a piece of the text: its own characters, the one that a stray character is, all
that follows an open quote, or nothing where a keyword is missing. These pieces follow one another, and
between them there are blanks and nothing else; a line feed is among the blanks only behind an opening
parenthesis. That is shown by following the scanner character by character, what it is reading being the
piece begun last.
-/

namespace Rulebase.Query

def Token.stop (length : Nat) (token : Token) : Nat :=
  match token.lexeme with
  | .fault (.missingKeyword _) => token.offset
  | .fault (.stray _) => token.offset + 1
  | .fault .unclosedQuote => length
  | lexeme => token.offset + lexeme.text.length

/-- A token that is no fault has the text that stands in its place. -/
def Token.Spelled (text : List Char) (token : Token) : Prop :=
  (∀ fault, token.lexeme ≠ .fault fault) →
    token.lexeme.text.toList = (text.drop token.offset).take (token.stop text.length - token.offset)

/-- Tokens stand in a text one after another, and what is in no token is blank. -/
structure Tiling (text : List Char) (tokens : List Token) : Prop where
  /-- Every token ends behind its beginning and inside the text. -/
  inside : ∀ token ∈ tokens,
    token.offset ≤ token.stop text.length ∧ token.stop text.length ≤ text.length
  /-- Every token begins where those before have ended. -/
  ordered : tokens.Pairwise fun first second => first.stop text.length ≤ second.offset
  spelled : ∀ token ∈ tokens, token.Spelled text
  /-- A character in no token is a blank, or a line feed between an opening parenthesis and the token
  behind it. -/
  blank : ∀ (i : Nat) (c : Char), text[i]? = some c →
    (∀ token ∈ tokens, ¬ (token.offset ≤ i ∧ i < token.stop text.length)) →
      c = ' ' ∨ c = '\t' ∨ c = '\r' ∨ c = '\n' ∧
        ∃ before opening following after, tokens = before ++ opening :: following :: after ∧
          opening.lexeme = .leftParen ∧ opening.offset < i ∧ i < following.offset

/-- Tokens tile a text from an offset on. A line feed is skipped only while an opening parenthesis is the
last token, and then some token must follow. -/
inductive Tiles (text : List Char) : (opened : Bool) → (start : Nat) → List Token → Prop where
  | finish : Tiles text false text.length []
  | skip {opened : Bool} {i : Nat} {c : Char} {tokens : List Token} (here : text[i]? = some c)
      (blank : isGap c = true ∨ opened = true ∧ c = '\n') (rest : Tiles text opened (i + 1) tokens) :
      Tiles text opened i tokens
  | token {opened : Bool} {tokens : List Token} (token : Token)
      (forward : token.offset ≤ token.stop text.length) (spelled : token.Spelled text)
      (rest : Tiles text (token.lexeme == .leftParen) (token.stop text.length) tokens) :
      Tiles text opened token.offset (token :: tokens)

namespace Tiles

variable {text : List Char} {opened : Bool} {i : Nat} {tokens : List Token}

theorem le_length (tiles : Tiles text opened i tokens) : i ≤ text.length := by
  induction tiles with
  | finish => exact Nat.le_refl _
  | skip here blank rest ih => omega
  | token first forward spelled rest ih => omega

theorem inside (tiles : Tiles text opened i tokens) :
    ∀ token ∈ tokens, i ≤ token.offset ∧ token.offset ≤ token.stop text.length ∧
      token.stop text.length ≤ text.length := by
  induction tiles with
  | finish => nofun
  | skip here blank rest ih =>
    intro token found
    have later := ih token found
    omega
  | token first forward spelled rest ih =>
    intro other found
    rcases List.mem_cons.mp found with rfl | found
    · exact ⟨Nat.le_refl _, forward, rest.le_length⟩
    · have later := ih other found
      omega

theorem ordered (tiles : Tiles text opened i tokens) :
    tokens.Pairwise fun first second => first.stop text.length ≤ second.offset := by
  induction tiles with
  | finish => exact .nil
  | skip here blank rest ih => exact ih
  | token first forward spelled rest ih =>
    exact .cons (fun other found => (rest.inside other found).1) ih

theorem spelled (tiles : Tiles text opened i tokens) : ∀ token ∈ tokens, token.Spelled text := by
  induction tiles with
  | finish => nofun
  | skip here blank rest ih => exact ih
  | token first forward spelled rest ih => exact List.forall_mem_cons.mpr ⟨spelled, ih⟩

theorem exists_following (tiles : Tiles text true i tokens) :
    ∃ following after, tokens = following :: after := by
  generalize isOpened : true = opened at tiles
  induction tiles with
  | finish => cases isOpened
  | skip here blank rest ih => exact ih isOpened
  | token first forward spelled rest ih => exact ⟨_, _, rfl⟩

/-- A character from the offset on and in no token is a blank, or a line feed behind an opening parenthesis:
the one before the offset, or one of the tokens. -/
theorem blank (tiles : Tiles text opened i tokens) {j : Nat} {c : Char} (start : i ≤ j)
    (here : text[j]? = some c)
    (outside : ∀ token ∈ tokens, ¬ (token.offset ≤ j ∧ j < token.stop text.length)) :
    isGap c = true ∨ c = '\n' ∧
      ((opened = true ∧ ∃ following after, tokens = following :: after ∧ j < following.offset) ∨
        ∃ before opening following after, tokens = before ++ opening :: following :: after ∧
          opening.lexeme = .leftParen ∧ opening.offset < j ∧ j < following.offset) := by
  induction tiles with
  | finish =>
    rw [List.getElem?_eq_none start] at here
    cases here
  | @skip opened i d tokens there blank rest ih =>
    rcases Nat.eq_or_lt_of_le start with rfl | later
    · cases there.symm.trans here
      rcases blank with gap | ⟨rfl, feed⟩
      · exact Or.inl gap
      · obtain ⟨following, after, rfl⟩ := rest.exists_following
        have behind := (rest.inside following List.mem_cons_self).1
        exact Or.inr ⟨feed, Or.inl ⟨rfl, following, after, rfl, behind⟩⟩
    · exact ih later outside
  | token token forward spelled rest ih =>
    have behind : token.stop text.length ≤ j := by
      have away := outside token List.mem_cons_self
      omega
    rcases ih behind fun other found => outside other (List.mem_cons_of_mem _ found) with gap |
      ⟨feed, ⟨isOpening, following, after, rfl, before⟩ | ⟨before, opening, following, after, rfl, found⟩⟩
    · exact Or.inl gap
    · have opening : token.lexeme = .leftParen := by simpa using isOpening
      have stops : token.stop text.length = token.offset + 1 := by
        simp only [Token.stop, opening]
        rfl
      exact Or.inr ⟨feed, Or.inr ⟨[], token, following, after, rfl, opening, by omega, before⟩⟩
    · exact Or.inr ⟨feed, Or.inr ⟨token :: before, opening, following, after, rfl, found⟩⟩

theorem tiling (tiles : Tiles text opened 0 tokens) (closed : opened = false) : Tiling text tokens where
  inside token found := (tiles.inside token found).2
  ordered := tiles.ordered
  spelled := tiles.spelled
  blank i c here outside := by
    rcases tiles.blank (Nat.zero_le i) here outside with gap | ⟨feed, ⟨isOpened, _⟩ | between⟩
    · simp only [isGap, Bool.or_eq_true, beq_iff_eq, or_assoc] at gap
      exact gap.imp_right fun gap => gap.imp_right Or.inl
    · exact absurd (closed.symm.trans isOpened) Bool.false_ne_true
    · exact Or.inr (Or.inr (Or.inr ⟨feed, between⟩))

end Tiles

namespace Mode

/-- Where the piece that is being read begins. -/
def begins (offset : Nat) : Mode → Nat
  | plain | awaiting => offset
  | keyword start _ | word start _ | quoted start _ => start

def unfinished : Mode → List Char
  | plain | awaiting => []
  | keyword _ read | word _ read | quoted _ read => read.reverse

def opened : Mode → Bool
  | awaiting | keyword _ _ => true
  | plain | word _ _ | quoted _ _ => false

/-- In a text, the piece that is being read stands before an offset, and the characters still unread behind
it. -/
structure At (text : List Char) (offset : Nat) (unread : List Char) (mode : Mode) : Prop where
  piece : text.drop (mode.begins offset) = mode.unfinished ++ unread
  offset_eq : mode.begins offset + mode.unfinished.length = offset
  length : offset + unread.length = text.length

namespace At

variable {text : List Char} {mode : Mode} {offset : Nat} {c : Char} {cs : List Char}

theorem rest (place : mode.At text offset cs) : text.drop offset = cs := by
  rw [← place.offset_eq, ← List.drop_drop, place.piece, List.drop_left]

theorem getElem? (place : mode.At text offset (c :: cs)) : text[offset]? = some c := by
  rw [← List.head?_drop, place.rest, List.head?_cons]

theorem plain (place : mode.At text offset cs) : Mode.plain.At text offset cs :=
  ⟨place.rest, rfl, place.length⟩

/-- A mode in which nothing has been read yet is at the next character. -/
theorem later (place : mode.At text offset (c :: cs)) {after : Mode}
    (begins : after.begins (offset + 1) = offset + 1) (nothing : after.unfinished = []) :
    after.At text (offset + 1) cs where
  piece := by
    rw [begins, nothing, ← List.drop_drop, place.rest, List.drop_one, List.tail_cons, List.nil_append]
  offset_eq := by rw [begins, nothing, List.length_nil, Nat.add_zero]
  length := by
    have whole := place.length
    rw [List.length_cons] at whole
    omega

theorem longer (place : mode.At text offset (c :: cs)) {after : Mode}
    (begins : after.begins (offset + 1) = mode.begins offset)
    (read : after.unfinished = mode.unfinished ++ [c]) : after.At text (offset + 1) cs where
  piece := by rw [begins, read, place.piece, List.append_assoc, List.singleton_append]
  offset_eq := by
    rw [begins, read, List.length_append, List.length_singleton, ← Nat.add_assoc, place.offset_eq]
  length := by
    have whole := place.length
    rw [List.length_cons] at whole
    omega

end At

end Mode

section Scan

variable {text : List Char} {opened : Bool} {mode : Mode} {offset start : Nat} {c : Char} {cs : List Char}
  {lexeme : Lexeme} {ts : List Token}

theorem Token.stop_of_proper (start length : Nat) (proper : ∀ fault, lexeme ≠ .fault fault) :
    (Token.mk lexeme start).stop length = start + lexeme.text.length := by
  cases lexeme with
  | fault f => exact absurd rfl (proper f)
  | _ => rfl

/-- A token that is no fault tiles the text that it has, when the tokens behind it tile what follows. -/
theorem Tiles.proper (proper : ∀ fault, lexeme ≠ .fault fault)
    (piece : text.drop start = lexeme.text.toList ++ cs)
    (rest : Tiles text (lexeme == .leftParen) (start + lexeme.text.length) ts) :
    Tiles text opened start (⟨lexeme, start⟩ :: ts) := by
  have stops := Token.stop_of_proper start text.length proper
  refine Tiles.token ⟨lexeme, start⟩ ?_ ?_ (stops ▸ rest)
  · rw [stops]
    exact Nat.le_add_right _ _
  · intro _
    rw [stops, Nat.add_sub_cancel_left, piece, ← String.length_toList, List.take_left]

/-- A fault tiles what it stands for, when the tokens behind it tile what follows. -/
theorem Tiles.fault (fault : Fault) (forward : start ≤ (Token.mk (.fault fault) start).stop text.length)
    (rest : Tiles text false ((Token.mk (.fault fault) start).stop text.length) ts) :
    Tiles text opened start (⟨.fault fault, start⟩ :: ts) :=
  Tiles.token ⟨.fault fault, start⟩ forward (fun proper => absurd rfl (proper fault)) rest

/-- A word that was read tiles the text up to where it ends, when the tokens behind it tile what follows. -/
theorem Tiles.word {read : List Char} (proper : ∀ fault, lexeme ≠ .fault fault)
    (other : lexeme ≠ .leftParen) (same : lexeme.text = wordOf read)
    (piece : text.drop start = read.reverse ++ cs) (finished : start + read.reverse.length = offset)
    (rest : Tiles text false offset ts) : Tiles text opened start (⟨lexeme, start⟩ :: ts) := by
  have chars : lexeme.text.toList = read.reverse := by rw [same, wordOf, String.toList_ofList]
  refine .proper proper (chars ▸ piece) ?_
  rwa [← String.length_toList, chars, finished, beq_eq_false_iff_ne.mpr other]

/-- What is complete, or cut off by the end of the text, tiles the text up to the offset when the tokens
behind it tile what follows. -/
theorem Tiles.close (place : mode.At text offset cs) (done : cs = [] ∨ ∃ c, mode.EndsAt c)
    (rest : Tiles text false offset ts) :
    Tiles text mode.opened (mode.begins offset) (close offset mode ++ ts) := by
  have finished := place.offset_eq
  cases mode with
  | plain => exact rest
  | awaiting => exact .fault (.missingKeyword none) (Nat.le_refl offset) rest
  | keyword start read => exact .word nofun nofun rfl place.piece finished rest
  | word start read => exact .word nofun nofun rfl place.piece finished rest
  | quoted start read =>
    rcases done with rfl | ⟨c, ends⟩
    · have stops : text.length = offset := place.length.symm
      have forward : start ≤ text.length := by
        rw [stops, ← finished]
        exact Nat.le_add_right _ _
      exact .fault .unclosedQuote forward (stops ▸ rest)
    · cases ends

section Step

variable (further : ∀ mode : Mode, mode.At text (offset + 1) cs →
  Tiles text mode.opened (mode.begins (offset + 1)) (scan mode (offset + 1) cs))

include further

/-- Between tokens, a character is a blank, or begins a token that tiles the text, if what the scanner gives
from then on tiles what follows. -/
theorem Tiles.scan_plain (place : Mode.plain.At text offset (c :: cs)) :
    Tiles text false offset (scan .plain offset (c :: cs)) := by
  have next := further .plain (place.later rfl rfl)
  rcases char_cases c with gap | rfl | rfl | rfl | rfl | wordy | ⟨proper, other⟩
  · rw [scan_gap gap]
    exact .skip place.getElem? (Or.inl gap) next
  · exact .proper nofun place.piece next
  · exact .proper nofun place.piece (further .awaiting (place.later rfl rfl))
  · exact .proper nofun place.piece next
  · exact .proper nofun place.piece (further (.quoted (offset + 1) []) (place.later rfl rfl))
  · rw [scan_word wordy]
    exact further (.word offset [c]) (place.longer rfl rfl)
  · rw [scan_stray proper other]
    exact .fault (.stray c) (Nat.le_succ offset) next

/-- Behind an opening parenthesis, a character is skipped, begins a keyword, or shows that none is there. -/
theorem Tiles.scan_awaiting (place : Mode.awaiting.At text offset (c :: cs)) :
    Tiles text true offset (scan .awaiting offset (c :: cs)) := by
  by_cases blank : isGap c = true ∨ c = '\n'
  · rw [scan_awaiting_blank blank]
    exact .skip place.getElem? (blank.imp_right fun feed => ⟨rfl, feed⟩)
      (further .awaiting (place.later rfl rfl))
  · cases proper : isKeywordChar c with
    | true =>
      rw [scan_keyword proper]
      exact further (.keyword offset [c]) (place.longer rfl rfl)
    | false =>
      rw [scan_missing blank proper]
      exact .fault (.missingKeyword (some c)) (Nat.le_refl offset) (Tiles.scan_plain further place.plain)

/-- Inside quotes, a character is the closing quote or makes the literal longer. -/
theorem Tiles.scan_quoted {read : List Char} (place : (Mode.quoted start read).At text offset (c :: cs)) :
    Tiles text false start (scan (.quoted start read) offset (c :: cs)) := by
  by_cases quote : c = '"'
  · subst quote
    rw [scan_closing_quote]
    refine .word nofun nofun rfl place.piece place.offset_eq ?_
    exact .proper nofun place.rest (further .plain (place.later rfl rfl))
  · rw [scan_quoted_longer quote]
    exact further (.quoted start (c :: read)) (place.longer rfl (List.reverse_cons ..))

end Step

/-- What the scanner gives from an offset on tiles the text from the piece on that it is reading there. -/
theorem Tiles.scan (mode : Mode) (place : mode.At text offset cs) :
    Tiles text mode.opened (mode.begins offset) (scan mode offset cs) := by
  induction cs generalizing mode offset with
  | nil =>
    have atEnd : offset = text.length := place.length
    have closed := Tiles.close place (Or.inl rfl) (atEnd ▸ Tiles.finish)
    rwa [List.append_nil] at closed
  | cons c cs ih =>
    by_cases ends : mode.EndsAt c
    · rw [scan_of_endsAt ends]
      exact Tiles.close place (Or.inr ⟨c, ends⟩) (Tiles.scan_plain ih place.plain)
    · cases mode with
      | plain => exact Tiles.scan_plain ih place
      | awaiting => exact Tiles.scan_awaiting ih place
      | keyword start read =>
        have proper : isKeywordChar c = true := by simpa [Mode.EndsAt] using ends
        rw [scan_keyword_longer proper]
        exact ih (.keyword start (c :: read)) (place.longer rfl (List.reverse_cons ..))
      | word start read =>
        have wordy : isWordChar c = true := by simpa [Mode.EndsAt] using ends
        rw [scan_word_longer wordy]
        exact ih (.word start (c :: read)) (place.longer rfl (List.reverse_cons ..))
      | quoted start read => exact Tiles.scan_quoted ih place

end Scan

/-- Asked for one token after another, a scanner gives tokens that tile the text, and then its end, however
often it is asked again. -/
theorem pull_tiles_then_finish (text : String) :
    ∃ found : List Token,
      (∀ token ∈ found, token.lexeme ≠ .finish) ∧
      (∀ later, pull text (found.length + later) =
        found ++ List.replicate later ⟨.finish, text.length⟩) ∧
      tokenize text = found ++ [⟨.finish, text.length⟩] ∧
      Tiling text.toList found := by
  refine ⟨tokens text, scan_ne_finish .plain 0 text.toList, fun later => ?_, rfl, ?_⟩
  · have ends : (Scanner.start text).limit = text.length :=
      (Nat.zero_add _).trans String.length_toList
    have remains : (Scanner.start text).remaining = tokens text := rfl
    rw [pull, Scanner.pull_add remains, ends]
  · have place : Mode.plain.At text.toList 0 text.toList := ⟨rfl, rfl, Nat.zero_add _⟩
    exact (Tiles.scan .plain place).tiling rfl

example : pull "(has @)" 6 =
    [⟨.leftParen, 0⟩, ⟨.keyword "has", 1⟩, ⟨.fault (.stray '@'), 5⟩, ⟨.rightParen, 6⟩, ⟨.finish, 7⟩,
      ⟨.finish, 7⟩] := by
  decide

end Rulebase.Query
