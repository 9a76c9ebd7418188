import Rulebase.Proofs.Query.Parsing

/-!
# Scanning step by step

How the scanner goes through a text: where what it is reading ends, and what a scanner that is asked for
one token at a time still has to give. Asked often enough, it gives all tokens of the text, and its end
from then on.
-/

namespace Rulebase.Query

variable {mode : Mode} {offset : Nat} {c : Char} {cs : List Char}

/-- What is being read is complete before a character. -/
def Mode.EndsAt (c : Char) : Mode → Prop
  | plain => True
  | awaiting => False
  | keyword _ _ => isKeywordChar c = false
  | word _ _ => isWordChar c = false
  | quoted _ _ => False

/-- What is complete before a character is given as it is at the end of a text, and reading goes on from
that character as between tokens. -/
theorem scan_of_endsAt (ends : mode.EndsAt c) :
    scan mode offset (c :: cs) = close offset mode ++ scan .plain offset (c :: cs) := by
  cases mode with
  | plain => rfl
  | awaiting => cases ends
  | keyword start read => simp [scan, step, close, show isKeywordChar c = false from ends]
  | word start read => simp [scan, step, close, show isWordChar c = false from ends]
  | quoted start read => cases ends

/-- What is complete before the next character, if there is one, is given as it is at the end of a text. -/
theorem scan_of_head_endsAt (ends : ∀ c ∈ cs.head?, mode.EndsAt c) :
    scan mode offset cs = close offset mode ++ scan .plain offset cs := by
  cases cs with
  | nil => exact (List.append_nil _).symm
  | cons c cs => exact scan_of_endsAt (ends c rfl)

section Characters

theorem isKeywordChar_of_isWordChar (wordy : isWordChar c = true) : isKeywordChar c = true := by
  have other {d : Char} (no : isWordChar d = false) : c ≠ d := fun same => by simp [same, no] at wordy
  have space := other (d := ' ') rfl
  have tab := other (d := '\t') rfl
  have carriageReturn := other (d := '\r') rfl
  have opening := other (d := '(') rfl
  have closing := other (d := ')') rfl
  have quote := other (d := '"') rfl
  have feed := other (d := '\n') rfl
  simp [isKeywordChar, isGap, *]

theorem isKeywordChar_iff :
    isKeywordChar c = true ↔ isGap c = false ∧ c ≠ '(' ∧ c ≠ ')' ∧ c ≠ '"' ∧ c ≠ '\n' := by
  simp [isKeywordChar, and_assoc]

theorem char_cases (c : Char) :
    isGap c = true ∨ c = '\n' ∨ c = '(' ∨ c = ')' ∨ c = '"' ∨ isWordChar c = true ∨
      isKeywordChar c = true ∧ isWordChar c = false := by
  grind [isKeywordChar_iff]

theorem scan_gap (gap : isGap c = true) :
    scan .plain offset (c :: cs) = scan .plain (offset + 1) cs := by
  simp [scan, step, stepPlain, gap]

theorem scan_feed :
    scan .plain offset ('\n' :: cs) = ⟨.newline, offset⟩ :: scan .plain (offset + 1) cs :=
  rfl

theorem scan_opening :
    scan .plain offset ('(' :: cs) = ⟨.leftParen, offset⟩ :: scan .awaiting (offset + 1) cs :=
  rfl

theorem scan_closing :
    scan .plain offset (')' :: cs) = ⟨.rightParen, offset⟩ :: scan .plain (offset + 1) cs :=
  rfl

theorem scan_quote :
    scan .plain offset ('"' :: cs) =
      ⟨.quote, offset⟩ :: scan (.quoted (offset + 1) []) (offset + 1) cs :=
  rfl

/-- A character of a keyword that is none of a word starts no token. -/
theorem scan_stray (proper : isKeywordChar c = true) (other : isWordChar c = false) :
    scan .plain offset (c :: cs) = ⟨.fault (.stray c), offset⟩ :: scan .plain (offset + 1) cs := by
  obtain ⟨gap, opening, closing, quote, feed⟩ := isKeywordChar_iff.mp proper
  simp [scan, step, stepPlain, gap, opening, closing, quote, feed, other]

theorem scan_word (wordy : isWordChar c = true) :
    scan .plain offset (c :: cs) = scan (.word offset [c]) (offset + 1) cs := by
  obtain ⟨gap, opening, closing, quote, feed⟩ :=
    isKeywordChar_iff.mp (isKeywordChar_of_isWordChar wordy)
  simp [scan, step, stepPlain, gap, opening, closing, quote, feed, wordy]

theorem scan_word_longer {start : Nat} {read : List Char} (wordy : isWordChar c = true) :
    scan (.word start read) offset (c :: cs) = scan (.word start (c :: read)) (offset + 1) cs := by
  simp [scan, step, wordy]

theorem scan_awaiting_blank (blank : isGap c = true ∨ c = '\n') :
    scan .awaiting offset (c :: cs) = scan .awaiting (offset + 1) cs := by
  simp [scan, step, blank]

theorem scan_keyword (proper : isKeywordChar c = true) :
    scan .awaiting offset (c :: cs) = scan (.keyword offset [c]) (offset + 1) cs := by
  obtain ⟨gap, _, _, _, feed⟩ := isKeywordChar_iff.mp proper
  simp [scan, step, gap, feed, proper]

theorem scan_keyword_longer {start : Nat} {read : List Char} (proper : isKeywordChar c = true) :
    scan (.keyword start read) offset (c :: cs) = scan (.keyword start (c :: read)) (offset + 1) cs := by
  simp [scan, step, proper]

/-- Where no keyword can begin it is missed, and reading goes on as between tokens. -/
theorem scan_missing (blank : ¬ (isGap c = true ∨ c = '\n')) (other : isKeywordChar c = false) :
    scan .awaiting offset (c :: cs) =
      ⟨.fault (.missingKeyword (some c)), offset⟩ :: scan .plain offset (c :: cs) := by
  simp [scan, step, blank, other]

theorem scan_quoted_longer {start : Nat} {read : List Char} (other : c ≠ '"') :
    scan (.quoted start read) offset (c :: cs) = scan (.quoted start (c :: read)) (offset + 1) cs := by
  simp [scan, step, other]

theorem scan_closing_quote {start : Nat} {read : List Char} :
    scan (.quoted start read) offset ('"' :: cs) =
      ⟨.parameter (wordOf read), start⟩ :: ⟨.quote, offset⟩ :: scan .plain (offset + 1) cs :=
  rfl

end Characters

namespace Scanner

def remaining (scanner : Scanner) : List Token :=
  scanner.ready ++ scan scanner.mode scanner.offset scanner.unread

def limit (scanner : Scanner) : Nat :=
  scanner.offset + scanner.unread.length

/-- Reading on gives the first of the tokens to come, and leaves the others; the end comes when there are
none. -/
theorem read_spec (mode : Mode) (offset : Nat) (cs : List Char) :
    (read mode offset cs).1 :: (read mode offset cs).2.remaining =
        scan mode offset cs ++
          (if scan mode offset cs = [] then [⟨.finish, offset + cs.length⟩] else []) ∧
      (read mode offset cs).2.limit = offset + cs.length := by
  induction cs generalizing mode offset with
  | nil => cases mode <;> simp [read, scan, close, remaining, limit]
  | cons c cs ih =>
    have further := ih (step mode offset c).2 (offset + 1)
    rw [read, scan]
    cases stepped : step mode offset c with
    | mk given after =>
      cases given with
      | nil => simpa [stepped, Nat.add_assoc, Nat.add_comm 1] using further
      | cons token ready => simp [remaining, limit, Nat.add_assoc, Nat.add_comm 1]

/-- A call gives the first of the tokens to come, and leaves the others. -/
theorem next_of_remaining {scanner : Scanner} {token : Token} {tokens : List Token}
    (some : scanner.remaining = token :: tokens) :
    scanner.next.1 = token ∧ scanner.next.2.remaining = tokens ∧
      scanner.next.2.limit = scanner.limit := by
  unfold next
  cases waiting : scanner.ready with
  | nil =>
    have further := read_spec scanner.mode scanner.offset scanner.unread
    rw [remaining, waiting, List.nil_append] at some
    rw [some] at further
    simpa [limit, and_assoc] using further
  | cons first ready =>
    rw [remaining, waiting, List.cons_append, List.cons.injEq] at some
    exact ⟨some.1, some.2, rfl⟩

/-- A call past the last token gives the end, and leaves nothing. -/
theorem next_of_nothing {scanner : Scanner} (nothing : scanner.remaining = []) :
    scanner.next.1 = ⟨.finish, scanner.limit⟩ ∧ scanner.next.2.remaining = [] ∧
      scanner.next.2.limit = scanner.limit := by
  obtain ⟨waiting, scanned⟩ := List.append_eq_nil_iff.mp nothing
  have further := read_spec scanner.mode scanner.offset scanner.unread
  rw [scanned] at further
  simpa [next, waiting, limit, and_assoc] using further

theorem pull_succ (scanner : Scanner) (count : Nat) :
    scanner.pull (count + 1) = scanner.next.1 :: scanner.next.2.pull count :=
  rfl

theorem pull_of_nothing {scanner : Scanner} (nothing : scanner.remaining = []) (count : Nat) :
    scanner.pull count = List.replicate count ⟨.finish, scanner.limit⟩ := by
  induction count generalizing scanner with
  | zero => rfl
  | succ count ih =>
    obtain ⟨given, after, same⟩ := next_of_nothing nothing
    rw [pull_succ, List.replicate_succ, given, ih after, same]

/-- As many calls as there are tokens give the tokens, and every call after these gives the end. -/
theorem pull_add {scanner : Scanner} {tokens : List Token} (remains : scanner.remaining = tokens)
    (later : Nat) :
    scanner.pull (tokens.length + later) =
      tokens ++ List.replicate later ⟨.finish, scanner.limit⟩ := by
  induction tokens generalizing scanner with
  | nil => simpa using pull_of_nothing remains later
  | cons token tokens ih =>
    obtain ⟨given, after, same⟩ := next_of_remaining remains
    rw [List.length_cons, Nat.add_right_comm, pull_succ, given, ih after, same, List.cons_append]

end Scanner

end Rulebase.Query
