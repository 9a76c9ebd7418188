import Mathlib.Data.List.Forall2
import Rulebase.Proofs.Query.Layout

/-!
# A text inside a larger one

What the scanner finds does not depend on the offset at which it begins. A text without faults is scanned
alike wherever a blank or a closing parenthesis stands behind it, and a fault does not go away when one
does. So a text can be written behind `not`, or several behind `and` or `or`, and the larger text is a
sentence of theirs; and what is no sentence does not become one behind `not`.
-/

namespace Rulebase.Query

variable {mode : Mode} {offset : Nat} {cs more : List Char} {text : String} {s : Sentence}

section Shift

def Token.shift (distance : Nat) (token : Token) : Token :=
  { token with offset := token.offset + distance }

def Mode.shift (distance : Nat) : Mode → Mode
  | plain => plain
  | awaiting => awaiting
  | keyword start read => keyword (start + distance) read
  | word start read => word (start + distance) read
  | quoted start read => quoted (start + distance) read

theorem stepPlain_shift (distance offset : Nat) (c : Char) :
    stepPlain (offset + distance) c =
      ((stepPlain offset c).1.map (Token.shift distance), (stepPlain offset c).2.shift distance) := by
  unfold stepPlain
  repeat' split
  all_goals simp [Token.shift, Mode.shift, Nat.add_right_comm]

theorem step_shift (distance : Nat) (mode : Mode) (offset : Nat) (c : Char) :
    step (mode.shift distance) (offset + distance) c =
      ((step mode offset c).1.map (Token.shift distance), (step mode offset c).2.shift distance) := by
  have plain := stepPlain_shift distance offset c
  cases mode <;> simp only [step, Mode.shift] <;> repeat' split
  all_goals simp_all [Token.shift, Mode.shift]

theorem close_shift (distance : Nat) (mode : Mode) (offset : Nat) :
    close (offset + distance) (mode.shift distance) = (close offset mode).map (Token.shift distance) := by
  cases mode <;> rfl

/-- Further on, the same tokens are found further on. -/
theorem scan_shift (distance : Nat) (mode : Mode) (offset : Nat) (cs : List Char) :
    scan (mode.shift distance) (offset + distance) cs = (scan mode offset cs).map (Token.shift distance) := by
  induction cs generalizing mode offset with
  | nil => exact close_shift distance mode offset
  | cons c cs ih =>
    rw [scan, scan, step_shift, List.map_append, ← ih, Nat.add_right_comm]

/-- The same lexemes are found wherever scanning begins. -/
theorem significant_scan_plain (offset : Nat) (cs : List Char) :
    significant (scan .plain offset cs) = significant (scan .plain 0 cs) := by
  have moved := scan_shift offset .plain 0 cs
  rw [Nat.zero_add] at moved
  rw [significant, significant, show Mode.plain = Mode.plain.shift offset from rfl, moved, List.map_map]
  rfl

end Shift

section Clean

def Clean (ts : List Token) : Prop :=
  ∀ fault, .fault fault ∉ significant ts

theorem clean_append {ts us : List Token} : Clean (ts ++ us) ↔ Clean ts ∧ Clean us := by
  simp [Clean, significant_append, forall_and]

theorem not_clean_of_fault {fault : Fault} {ts : List Token} :
    ¬ Clean (⟨.fault fault, offset⟩ :: ts) := by
  intro clean
  apply clean fault
  simp [significant_cons]

/-- What is scanned without faults up to the end is scanned alike before a character that ends words. -/
theorem scan_append_of_clean (clean : Clean (scan mode offset cs)) (apart : Apart more) :
    scan mode offset (cs ++ more) = scan mode offset cs ++ scan .plain (offset + cs.length) more := by
  induction cs generalizing mode offset with
  | nil =>
    cases mode with
    | plain => rfl
    | awaiting => exact absurd clean not_clean_of_fault
    | keyword start read => exact scan_of_apart (.keyword start read) apart fun _ other => other
    | word start read => exact scan_of_apart (.word start read) apart fun _ => isWordChar_eq_false
    | quoted start read => exact absurd clean not_clean_of_fault
  | cons c cs ih =>
    rw [scan, clean_append] at clean
    rw [List.cons_append, scan, scan, ih clean.2, List.append_assoc, List.length_cons,
      Nat.add_right_comm, Nat.add_assoc]

theorem clean_of_closing (clean : Clean (scan mode offset (cs ++ [')']))) :
    Clean (scan mode offset cs) := by
  induction cs generalizing mode offset with
  | nil =>
    cases mode with
    | plain => exact fun fault => List.not_mem_nil
    | awaiting => exact absurd clean not_clean_of_fault
    | keyword start read => exact fun fault => by simp [scan, close, significant]
    | word start read => exact fun fault => by simp [scan, close, significant]
    | quoted start read => exact absurd clean not_clean_of_fault
  | cons c cs ih =>
    rw [List.cons_append, scan, clean_append] at clean
    rw [scan, clean_append]
    exact ⟨clean.1, ih clean.2⟩

end Clean

/-- A text is written in the tokens of a sentence when these are what the scanner finds before the end. -/
theorem reads_iff : Reads text s ↔ significant (tokens text) = s.lexemes := by
  rw [Reads, significant_tokenize, List.append_left_inj]

/-- A text written as a sentence gives its lexemes before a character that ends words, too. -/
theorem Reads.significant_scan_append (reads : Reads text s) (apart : Apart more) :
    significant (scan .plain 0 (text.toList ++ more)) =
      s.lexemes ++ significant (scan .plain 0 more) := by
  have same : significant (scan .plain 0 text.toList) = s.lexemes := reads_iff.mp reads
  have clean : Clean (scan .plain 0 text.toList) := by
    intro fault
    rw [same]
    exact s.fault_notMem_lexemes fault
  rw [scan_append_of_clean clean apart, significant_append, same, significant_scan_plain (0 + _)]

def enclose (word inner : String) : String :=
  "(" ++ word ++ " " ++ inner ++ ")"

/-- In parentheses behind a keyword, a text is scanned up to the closing parenthesis. -/
theorem significant_tokens_enclose {word : String} (some : word.toList ≠ [])
    (proper : ∀ c ∈ word.toList, isKeywordChar c = true) (inner : String) :
    significant (tokens (enclose word inner)) =
      .leftParen :: .keyword word :: significant (scan .plain 0 (inner.toList ++ [')'])) := by
  have chars : (enclose word inner).toList = '(' :: (word.toList ++ ' ' :: (inner.toList ++ [')'])) := by
    simp [enclose]
  rw [tokens, chars, scan_opening, scan_awaiting_word some proper,
    scan_of_apart (.keyword _ _) (.cons rfl) fun _ other => other, scan_gap rfl]
  simp only [close, wordOf, List.reverse_reverse, String.ofList_toList, List.cons_append,
    List.nil_append, significant_cons, reduceCtorEq, if_false]
  rw [significant_scan_plain]

/-- The sentences that a text behind `not` can be are the ones of the text, negated. -/
theorem reads_enclose_not :
    Reads (enclose "not" text) s ↔ ∃ inner, s = .negated inner ∧ Reads text inner := by
  have closing : significant (scan .plain 0 [')']) = [.rightParen] := rfl
  have found : significant (tokens (enclose "not" text)) = _ :=
    significant_tokens_enclose (by decide) (List.all_eq_true.mp rfl) text
  constructor
  · intro reads
    rw [reads_iff, found] at reads
    have clean : Clean (scan .plain 0 text.toList) := by
      apply clean_of_closing
      intro fault inside
      apply s.fault_notMem_lexemes fault
      rw [← reads]
      exact List.mem_cons_of_mem _ (List.mem_cons_of_mem _ inside)
    rw [scan_append_of_clean clean (.cons rfl), significant_append, significant_scan_plain (0 + _),
      closing] at reads
    cases s with
    | test verb literal selection => simp [Sentence.lexemes, verb.word_ne_not.symm] at reads
    | joined junction first rest => simp [Sentence.lexemes, junction.word_ne_not.symm] at reads
    | negated inner =>
      refine ⟨inner, rfl, reads_iff.mpr ?_⟩
      simpa [Sentence.lexemes, tokens] using reads
  · rintro ⟨inner, rfl, reads⟩
    rw [reads_iff, found, reads.significant_scan_append (.cons rfl), closing]
    simp [Sentence.lexemes]

/-- Texts written as sentences, with blanks between them, give the lexemes of these one after another. -/
theorem significant_scan_row {texts : List String} {sentences : List Sentence}
    (reads : List.Forall₂ Reads texts sentences) :
    significant (scan .plain 0 ((" ".intercalate texts).toList ++ [')'])) =
      lexemesOf sentences ++ [.rightParen] := by
  induction reads with
  | nil => rfl
  | @cons text s _ _ read others ih =>
    cases others with
    | nil =>
      rw [String.intercalate_singleton, read.significant_scan_append (.cons rfl), lexemesOf, lexemesOf,
        List.append_nil]
      rfl
    | @cons next _ texts =>
      have blank (cs : List Char) :
          significant (scan .plain 0 (' ' :: cs)) = significant (scan .plain 0 cs) := by
        rw [scan_gap rfl, significant_scan_plain]
      have chars : (" ".intercalate (text :: next :: texts)).toList =
          text.toList ++ ' ' :: (" ".intercalate (next :: texts)).toList := by
        simp [String.intercalate_cons_cons]
      rw [chars, List.append_assoc, List.cons_append, read.significant_scan_append (.cons rfl), blank, ih]
      exact (List.append_assoc s.lexemes _ _).symm

/-- Texts written as sentences are, behind `and` or `or`, the sentences joined. -/
theorem reads_enclose_junction (junction : Junction) {texts : List String} {sentences : List Sentence}
    (read : Reads text s) (reads : List.Forall₂ Reads texts sentences) :
    Reads (enclose junction.word (" ".intercalate (text :: texts))) (.joined junction s sentences) := by
  rw [reads_iff, significant_tokens_enclose junction.word_proper.1 junction.word_proper.2,
    significant_scan_row (.cons read reads)]
  simp [Sentence.lexemes, lexemesOf]

end Rulebase.Query
