import Rulebase.Proofs.Query.Embedding
import Rulebase.Proofs.Query.Tiling

/-!
# Scanning past a stray character

A character that fits nowhere makes one fault and no more. What was being read in front of it is complete there, as
at the end of a text, and behind it reading goes on as at the beginning of one. So a text with such a character in
it has the tokens of what stands in front, the fault, and the tokens of what stands behind. It is otherwise only
inside quotes, where a keyword is still awaited, and right behind a keyword, which the character makes longer.
-/

namespace Rulebase.Query

variable {mode : Mode} {offset : Nat} {c : Char} {cs ds : List Char}

/-- What the scanner is reading behind some characters. -/
def Mode.behind : (offset : Nat) → List Char → Mode → Mode
  | _, [], mode => mode
  | offset, c :: cs, mode => (step mode offset c).2.behind (offset + 1) cs

/-- Where what is being read is complete, a text is scanned as two. -/
theorem scan_append_of_endsAt (ends : (mode.behind offset cs).EndsAt c) :
    scan mode offset (cs ++ c :: ds) =
      scan mode offset cs ++ scan .plain (offset + cs.length) (c :: ds) := by
  induction cs generalizing mode offset with
  | nil => exact scan_of_endsAt ends
  | cons d cs ih =>
    rw [List.cons_append, scan, scan, ih ends, List.append_assoc, List.length_cons, Nat.add_right_comm,
      Nat.add_assoc]

theorem mem_scan_of_mem_close {token : Token}
    (closed : token ∈ close (offset + cs.length) (mode.behind offset cs)) : token ∈ scan mode offset cs := by
  induction cs generalizing mode offset with
  | nil => exact closed
  | cons d cs ih =>
    rw [List.length_cons, Nat.add_comm cs.length, ← Nat.add_assoc] at closed
    exact List.mem_append_right _ (ih closed)

namespace Mode

/-- The piece that is being read reaches up to an offset. -/
def Reaches (offset : Nat) (mode : Mode) : Prop :=
  mode.begins offset + mode.unfinished.length = offset

theorem reaches_stepPlain (offset : Nat) (c : Char) : (stepPlain offset c).2.Reaches (offset + 1) := by
  unfold stepPlain
  repeat' split
  all_goals rfl

theorem Reaches.step (reaches : mode.Reaches offset) (c : Char) :
    (step mode offset c).2.Reaches (offset + 1) := by
  have plain := reaches_stepPlain offset c
  have longer (start : Nat) (read : List Char) (reaches : start + read.reverse.length = offset) :
      start + (c :: read).reverse.length = offset + 1 := by
    rw [List.reverse_cons, List.length_append, ← Nat.add_assoc, reaches, List.length_singleton]
  cases mode with
  | plain => exact plain
  | awaiting =>
    simp only [Query.step]
    repeat' split
    · rfl
    · rfl
    · exact plain
  | keyword start read =>
    simp only [Query.step]
    split
    · exact longer start read reaches
    · exact plain
  | word start read =>
    simp only [Query.step]
    split
    · exact longer start read reaches
    · exact plain
  | quoted start read =>
    simp only [Query.step]
    split
    · rfl
    · exact longer start read reaches

theorem Reaches.behind (reaches : mode.Reaches offset) (cs : List Char) :
    (mode.behind offset cs).Reaches (offset + cs.length) := by
  induction cs generalizing mode offset with
  | nil => exact reaches
  | cons c cs ih =>
    rw [List.length_cons, Nat.add_comm cs.length, ← Nat.add_assoc]
    exact ih (reaches.step c)

end Mode

/-- Reading comes to the end of a text between tokens or inside a word, unless a fault or a keyword at the end shows
that it does not. -/
theorem endsAt_of_tokens {text : String} (other : isWordChar c = false)
    (unquoted : ∀ offset, ⟨.fault .unclosedQuote, offset⟩ ∉ tokens text)
    (supplied : ∀ offset, ⟨.fault (.missingKeyword none), offset⟩ ∉ tokens text)
    (apart : ∀ word offset, ⟨.keyword word, offset⟩ ∈ tokens text → offset + word.length ≠ text.length) :
    (Mode.plain.behind 0 text.toList).EndsAt c := by
  have start : Mode.plain.Reaches 0 := rfl
  have reaches := start.behind text.toList
  have closed (token : Token)
      (found : token ∈ close (0 + text.toList.length) (Mode.plain.behind 0 text.toList)) : token ∈ tokens text :=
    mem_scan_of_mem_close found
  cases last : Mode.plain.behind 0 text.toList with
  | plain => trivial
  | awaiting =>
    rw [last] at closed
    exact absurd (closed _ List.mem_cons_self) (supplied _)
  | keyword start read =>
    rw [last] at closed reaches
    have whole : start + (wordOf read).length = text.length := by
      rw [wordOf, ← String.length_toList, String.toList_ofList]
      exact reaches.trans ((Nat.zero_add _).trans String.length_toList)
    exact absurd whole (apart _ _ (closed _ List.mem_cons_self))
  | word start read => exact other
  | quoted start read =>
    rw [last] at closed
    exact absurd (closed _ List.mem_cons_self) (unquoted _)

/-- A character that starts no token, behind a text that does not end in a quote, before a keyword or with one, makes
one fault. In front of it there are the tokens of that text, and behind it those of what follows, moved on. -/
theorem tokenize_stray (u v : String) (c : Char)
    (other : c ∉ [' ', '\t', '\r', '\n', '(', ')', '"', '_']) (symbol : Text.isAlphanumeric c = false)
    (unquoted : ∀ offset, ⟨.fault .unclosedQuote, offset⟩ ∉ tokens u)
    (supplied : ∀ offset, ⟨.fault (.missingKeyword none), offset⟩ ∉ tokens u)
    (apart : ∀ word offset, ⟨.keyword word, offset⟩ ∈ tokens u → offset + word.length ≠ u.length) :
    tokenize (u ++ String.singleton c ++ v) =
        tokens u ++ ⟨.fault (.stray c), u.length⟩ :: (tokenize v).map (Token.shift (u.length + 1)) ∧
      (Fault.stray c).message = "expected parameter but got: " ++ Text.quote (String.singleton c) := by
  refine ⟨?_, rfl⟩
  simp only [List.mem_cons, List.not_mem_nil, or_false, not_or] at other
  obtain ⟨space, tab, carriageReturn, feed, opening, closing, quote, underscore⟩ := other
  have wordless : isWordChar c = false := by simp [isWordChar, underscore, symbol]
  have proper : isKeywordChar c = true := by
    simp [isKeywordChar, isGap, space, tab, carriageReturn, feed, opening, closing, quote]
  have chars : (u ++ String.singleton c ++ v).toList = u.toList ++ c :: v.toList := by simp
  have length : (u ++ String.singleton c ++ v).length = v.length + (u.length + 1) := by
    simp only [← String.length_toList, chars, List.length_append, List.length_cons]
    omega
  have before : scan .plain 0 (u.toList ++ c :: v.toList) =
      tokens u ++ scan .plain (0 + u.toList.length) (c :: v.toList) :=
    scan_append_of_endsAt (endsAt_of_tokens wordless unquoted supplied apart)
  have behind : scan .plain (u.length + 1) v.toList = (tokens v).map (Token.shift (u.length + 1)) := by
    have moved := scan_shift (u.length + 1) .plain 0 v.toList
    rwa [Nat.zero_add] at moved
  rw [tokenize, tokens, chars, before, Nat.zero_add, String.length_toList, scan_stray proper wordless, behind,
    finish, length, tokenize, List.map_append, List.append_assoc, List.cons_append]
  rfl

/-- A hash right behind a word on a second line, and an unclosed quote and another fault behind the hash. -/
theorem tokenize_hash :
    tokenize "(has \"a\"\nwo#@ (\"" =
      [⟨.leftParen, 0⟩, ⟨.keyword "has", 1⟩, ⟨.quote, 5⟩, ⟨.parameter "a", 6⟩, ⟨.quote, 7⟩, ⟨.newline, 8⟩,
        ⟨.parameter "wo", 9⟩, ⟨.fault (.stray '#'), 11⟩, ⟨.fault (.stray '@'), 12⟩, ⟨.leftParen, 14⟩,
        ⟨.fault (.missingKeyword (some '"')), 15⟩, ⟨.quote, 15⟩, ⟨.fault .unclosedQuote, 16⟩, ⟨.finish, 16⟩] := by
  have scanned : tokens "(has \"a\"\nwo" =
      [⟨.leftParen, 0⟩, ⟨.keyword "has", 1⟩, ⟨.quote, 5⟩, ⟨.parameter "a", 6⟩, ⟨.quote, 7⟩, ⟨.newline, 8⟩,
        ⟨.parameter "wo", 9⟩] := by
    decide
  have apart : ∀ word offset, ⟨.keyword word, offset⟩ ∈ tokens "(has \"a\"\nwo" →
      offset + word.length ≠ "(has \"a\"\nwo".length := by
    rintro word offset found
    simp only [scanned, List.mem_cons, Token.mk.injEq, Lexeme.keyword.injEq, reduceCtorEq, List.not_mem_nil,
      false_and, false_or, or_false] at found
    obtain ⟨rfl, rfl⟩ := found
    decide
  have law := (tokenize_stray "(has \"a\"\nwo" "@ (\"" '#' (by decide) (by decide) (by simp [scanned])
    (by simp [scanned]) apart).1
  rw [scanned] at law
  exact law

end Rulebase.Query
