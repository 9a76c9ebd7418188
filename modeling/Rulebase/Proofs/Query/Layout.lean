import Rulebase.Proofs.Query.Meaning
import Rulebase.Proofs.Query.Scanning

/-!
# Layouts of a query

A sentence can be written in many ways: with spacing before, between and behind its tokens, and with blanks
around a literal inside the quotes. Whatever the layout, the scanner finds the tokens of the sentence, line
feeds apart, and the blanks do not change what a literal denotes. So every layout of a valid sentence parses,
and the query says of a rule what the sentence says.
-/

namespace Rulebase

namespace Text

theorem trim_append_blanks {before cs after : List Char} (left : ∀ c ∈ before, isBlank c = true)
    (right : ∀ c ∈ after, isBlank c = true) : trim (before ++ cs ++ after) = trim cs := by
  have back : ∀ c ∈ after.reverse, isBlank c = true := fun c found => right c (List.mem_reverse.mp found)
  unfold trim
  rw [List.append_assoc, List.dropWhile_append_of_pos left, List.dropWhile_append]
  split
  · rename_i nothing
    have rest : after.dropWhile isBlank = [] := by
      rw [← List.append_nil after, List.dropWhile_append_of_pos right, List.dropWhile_nil]
    rw [List.isEmpty_iff.mp nothing, rest]
  · rw [List.reverse_append, List.dropWhile_append_of_pos back]

end Text

namespace Query

/-- Spaces, tabs, carriage returns and line feeds, or nothing. -/
def IsSpacing (cs : List Char) : Prop :=
  ∀ c ∈ cs, isGap c = true ∨ c = '\n'

-- named, since the instance that goes through all characters may be found in its place
instance (cs : List Char) : Decidable (IsSpacing cs) :=
  List.decidableBAll (fun c => isGap c = true ∨ c = '\n') cs

/-- Lexemes are written by characters, with spacing before, between and behind them. Where a word stands just
before, another word comes after some spacing. -/
inductive Layout : (worded : Bool) → List Lexeme → List Char → Prop where
  | finish {worded : Bool} {gap : List Char} (spacing : IsSpacing gap) : Layout worded [] gap
  | opening {worded : Bool} {gap inner cs : List Char} {word : String} {ls : List Lexeme}
      (spacing : IsSpacing gap) (innerSpacing : IsSpacing inner) (rest : Layout true ls cs) :
      Layout worded (.leftParen :: .keyword word :: ls) (gap ++ '(' :: (inner ++ (word.toList ++ cs)))
  | closing {worded : Bool} {gap cs : List Char} {ls : List Lexeme} (spacing : IsSpacing gap)
      (rest : Layout false ls cs) : Layout worded (.rightParen :: ls) (gap ++ ')' :: cs)
  | word {worded : Bool} {gap cs : List Char} {word : String} {ls : List Lexeme}
      (spacing : IsSpacing gap) (apart : worded = true → gap ≠ []) (rest : Layout true ls cs) :
      Layout worded (.parameter word :: ls) (gap ++ (word.toList ++ cs))
  | quoted {worded : Bool} {gap cs : List Char} {literal : String} {ls : List Lexeme}
      (spacing : IsSpacing gap) (rest : Layout false ls cs) :
      Layout worded (.quote :: .parameter literal :: .quote :: ls)
        (gap ++ '"' :: (literal.toList ++ '"' :: cs))

def PadsTo (literal padded : String) : Prop :=
  ∃ before after, (∀ c ∈ before, Text.isBlank c = true) ∧ (∀ c ∈ after, Text.isBlank c = true) ∧
    padded.toList = before ++ literal.toList ++ after

mutual

inductive Pads : Sentence → Sentence → Prop where
  | test {verb : Verb} {literal padded : String} {selection : Selection} (blanks : PadsTo literal padded) :
      Pads (.test verb literal selection) (.test verb padded selection)
  | joined {junction : Junction} {s t : Sentence} {ss ts : List Sentence} (first : Pads s t)
      (others : AllPad ss ts) : Pads (.joined junction s ss) (.joined junction t ts)
  | negated {s t : Sentence} (inner : Pads s t) : Pads (.negated s) (.negated t)

inductive AllPad : List Sentence → List Sentence → Prop where
  | nil : AllPad [] []
  | cons {s t : Sentence} {ss ts : List Sentence} (first : Pads s t) (others : AllPad ss ts) :
      AllPad (s :: ss) (t :: ts)

end

def Sentence.Renders (s : Sentence) (text : String) : Prop :=
  ∃ padded, Pads s padded ∧ Layout false padded.lexemes text.toList

mutual

def Sentence.literals : Sentence → List String
  | .test _ literal _ => [literal]
  | .joined _ first rest => first.literals ++ literalsOf rest
  | .negated sentence => sentence.literals

def literalsOf : List Sentence → List String
  | [] => []
  | sentence :: rest => sentence.literals ++ literalsOf rest

end

/-- Lexemes that the scanner can tell from their characters. -/
inductive Scannable : List Lexeme → Prop where
  | nil : Scannable []
  | opening {word : String} {ls : List Lexeme} (some : word.toList ≠ [])
      (proper : ∀ c ∈ word.toList, isKeywordChar c = true) (rest : Scannable ls) :
      Scannable (.leftParen :: .keyword word :: ls)
  | closing {ls : List Lexeme} (rest : Scannable ls) : Scannable (.rightParen :: ls)
  | word {word : String} {ls : List Lexeme} (some : word.toList ≠ [])
      (proper : ∀ c ∈ word.toList, isWordChar c = true) (rest : Scannable ls) :
      Scannable (.parameter word :: ls)
  | quoted {literal : String} {ls : List Lexeme} (plain : '"' ∉ literal.toList) (rest : Scannable ls) :
      Scannable (.quote :: .parameter literal :: .quote :: ls)

section Scan

variable {offset start : Nat} {gap word cs : List Char} {worded : Bool} {ls : List Lexeme}

/-- Between tokens, spacing comes to line feeds at most. -/
theorem significant_scan_spacing (spacing : IsSpacing gap) (offset : Nat) :
    significant (scan .plain offset (gap ++ cs)) =
      significant (scan .plain (offset + gap.length) cs) := by
  induction gap generalizing offset with
  | nil => rfl
  | cons c gap ih =>
    obtain ⟨blank, spacing⟩ := List.forall_mem_cons.mp spacing
    have later := ih spacing (offset + 1)
    rw [List.length_cons, Nat.add_comm gap.length, ← Nat.add_assoc, ← later, List.cons_append]
    rcases blank with gap | rfl
    · rw [scan_gap gap]
    · rw [scan_feed, significant_cons, if_pos rfl]

/-- Characters that only make what is being read longer are read one after another. -/
theorem scan_append (longer : List Char → Mode) {p : Char → Prop}
    (silent : ∀ read offset c cs, p c →
      scan (longer read) offset (c :: cs) = scan (longer (c :: read)) (offset + 1) cs)
    (all : ∀ c ∈ word, p c) (read : List Char) (offset : Nat) :
    scan (longer read) offset (word ++ cs) =
      scan (longer (word.reverse ++ read)) (offset + word.length) cs := by
  induction word generalizing offset read with
  | nil => rfl
  | cons c word ih =>
    obtain ⟨here, all⟩ := List.forall_mem_cons.mp all
    rw [List.cons_append, silent read offset c _ here, ih all, List.reverse_cons, List.append_assoc,
      List.length_cons, Nat.add_comm word.length, ← Nat.add_assoc]
    rfl

theorem scan_awaiting_spacing (spacing : IsSpacing gap) :
    scan .awaiting offset (gap ++ cs) = scan .awaiting (offset + gap.length) cs :=
  scan_append (fun _ => .awaiting) (fun _ _ _ _ => scan_awaiting_blank) spacing [] offset

/-- Behind an opening parenthesis, the characters of a keyword are read as one. -/
theorem scan_awaiting_word (some : word ≠ []) (proper : ∀ c ∈ word, isKeywordChar c = true) :
    scan .awaiting offset (word ++ cs) =
      scan (.keyword offset word.reverse) (offset + word.length) cs := by
  obtain ⟨c, word, rfl⟩ := List.exists_cons_of_ne_nil some
  obtain ⟨here, proper⟩ := List.forall_mem_cons.mp proper
  rw [List.cons_append, scan_keyword here,
    scan_append (.keyword offset) (fun _ _ _ _ => scan_keyword_longer) proper, List.reverse_cons,
    List.length_cons, Nat.add_comm word.length, ← Nat.add_assoc]

/-- Between tokens, the characters of a word are read as one. -/
theorem scan_plain_word (some : word ≠ []) (proper : ∀ c ∈ word, isWordChar c = true) :
    scan .plain offset (word ++ cs) = scan (.word offset word.reverse) (offset + word.length) cs := by
  obtain ⟨c, word, rfl⟩ := List.exists_cons_of_ne_nil some
  obtain ⟨here, proper⟩ := List.forall_mem_cons.mp proper
  rw [List.cons_append, scan_word here,
    scan_append (.word offset) (fun _ _ _ _ => scan_word_longer) proper, List.reverse_cons,
    List.length_cons, Nat.add_comm word.length, ← Nat.add_assoc]

/-- Behind a quote, the characters up to the next one are read as a literal. -/
theorem scan_literal {literal : List Char} (plain : '"' ∉ literal) :
    scan (.quoted start []) offset (literal ++ '"' :: cs) =
      ⟨.parameter (String.ofList literal), start⟩ :: ⟨.quote, offset + literal.length⟩ ::
        scan .plain (offset + literal.length + 1) cs := by
  have all : ∀ c ∈ literal, c ≠ '"' := fun c found same => plain (same ▸ found)
  rw [scan_append (.quoted start) (fun _ _ _ _ => scan_quoted_longer) all, List.append_nil,
    scan_closing_quote, wordOf, List.reverse_reverse]

/-- Characters that do not go on with a word that stands before them. -/
def Apart (cs : List Char) : Prop :=
  ∀ c ∈ cs.head?, isKeywordChar c = false

theorem Apart.cons {c : Char} (other : isKeywordChar c = false) : Apart (c :: cs) := by
  rintro _ ⟨⟩
  exact other

theorem IsSpacing.apart (spacing : IsSpacing gap) (next : gap = [] → Apart cs) : Apart (gap ++ cs) := by
  cases gap with
  | nil => exact next rfl
  | cons d gap =>
    rcases (List.forall_mem_cons.mp spacing).1 with blank | rfl
    · exact .cons (by simp [isKeywordChar, blank])
    · exact .cons rfl

/-- Behind a word, a layout goes on with what ends it. -/
theorem Layout.apart (layout : Layout true ls cs) : Apart cs := by
  generalize behind : true = worded at layout
  cases layout with
  | finish spacing => exact List.append_nil cs ▸ spacing.apart fun _ => nofun
  | opening spacing => exact spacing.apart fun _ => .cons rfl
  | closing spacing => exact spacing.apart fun _ => .cons rfl
  | word spacing apart => exact spacing.apart fun nothing => absurd nothing (apart behind.symm)
  | quoted spacing => exact spacing.apart fun _ => .cons rfl

/-- A keyword or a word is complete before what ends it. -/
theorem scan_of_apart (mode : Mode) (apart : Apart cs)
    (ends : ∀ c, isKeywordChar c = false → mode.EndsAt c) :
    scan mode offset cs = close offset mode ++ scan .plain offset cs :=
  scan_of_head_endsAt fun c next => ends c (apart c next)

theorem isWordChar_eq_false {c : Char} (other : isKeywordChar c = false) : isWordChar c = false := by
  cases wordy : isWordChar c with
  | false => rfl
  | true => exact absurd (isKeywordChar_of_isWordChar wordy) (Bool.eq_false_iff.mp other)

/-- In a layout the scanner finds the lexemes that are written, line feeds apart. -/
theorem Layout.significant_scan (layout : Layout worded ls cs) (scannable : Scannable ls) (offset : Nat) :
    significant (scan .plain offset cs) = ls := by
  induction layout generalizing offset with
  | @finish _ gap spacing =>
    have blank : significant (scan .plain offset (gap ++ [])) =
        significant (scan .plain (offset + gap.length) []) :=
      significant_scan_spacing spacing offset
    rwa [List.append_nil] at blank
  | @opening _ gap inner cs word ls spacing innerSpacing rest ih =>
    cases scannable with
    | opening some proper others =>
      rw [significant_scan_spacing spacing, scan_opening, scan_awaiting_spacing innerSpacing,
        scan_awaiting_word some proper, scan_of_apart (.keyword _ _) rest.apart fun _ other => other]
      simp [significant_cons, close, wordOf, ih others]
  | closing spacing rest ih =>
    cases scannable with
    | closing others =>
      rw [significant_scan_spacing spacing, scan_closing, significant_cons, ih others]
      rfl
  | word spacing apart rest ih =>
    cases scannable with
    | word some proper others =>
      rw [significant_scan_spacing spacing, scan_plain_word some proper,
        scan_of_apart (.word _ _) rest.apart fun _ => isWordChar_eq_false]
      simp [significant_cons, close, wordOf, ih others]
  | quoted spacing rest ih =>
    cases scannable with
    | quoted plain others =>
      rw [significant_scan_spacing spacing, scan_quote, scan_literal plain]
      simp [significant_cons, ih others]

end Scan

section Sentences

variable {catalog : Option Catalog}

theorem Verb.word_proper (verb : Verb) :
    verb.word.toList ≠ [] ∧ ∀ c ∈ verb.word.toList, isKeywordChar c = true := by
  rw [← List.all_eq_true]
  cases verb <;> decide

theorem Junction.word_proper (junction : Junction) :
    junction.word.toList ≠ [] ∧ ∀ c ∈ junction.word.toList, isKeywordChar c = true := by
  rw [← List.all_eq_true]
  cases junction <;> decide

theorem side_word_proper {word : String} {side : Side} (known : side? word = some side) :
    word.toList ≠ [] ∧ ∀ c ∈ word.toList, isWordChar c = true := by
  obtain ⟨before, after, split, _⟩ := List.lookup_eq_some_iff.mp known
  have proper : ∀ entry ∈ before ++ (word, side) :: after,
      entry.1.toList ≠ [] ∧ entry.1.toList.all isWordChar = true := by
    rw [← split]
    decide
  rw [← List.all_eq_true]
  exact proper (word, side) (List.mem_append_right before List.mem_cons_self)

/-- A selection of a side that a word names is written with proper words. -/
theorem Selection.scannable {selection : Selection} {object : Object} {side : Side} {ls : List Lexeme}
    (named : selection.Names object side) (more : Scannable ls) :
    Scannable (selection.lexemes ++ ls) := by
  cases selection with
  | absent => exact more
  | bare word =>
    obtain ⟨some, proper⟩ := side_word_proper named.1
    exact .word (by decide) (List.all_eq_true.mp rfl) (.word some proper more)
  | enclosed word =>
    obtain ⟨some, proper⟩ := side_word_proper named.1
    exact .opening (by decide) (List.all_eq_true.mp rfl) (.word some proper (.closing more))

mutual

/-- A valid sentence whose literals have no quotes is written with lexemes that the scanner can tell. -/
theorem Sentence.scannable (s : Sentence) {ls : List Lexeme} (valid : s.Valid catalog)
    (plain : ∀ literal ∈ s.literals, '"' ∉ literal.toList) (more : Scannable ls) :
    Scannable (s.lexemes ++ ls) := by
  match s with
  | .test verb literal selection =>
    obtain ⟨object, side, _, named⟩ := valid
    have closed : Scannable (.rightParen :: ls) := .closing more
    simp only [Sentence.lexemes, List.append_assoc, List.cons_append, List.nil_append]
    exact .opening verb.word_proper.1 verb.word_proper.2
      (.quoted (plain literal List.mem_cons_self) (Selection.scannable named closed))
  | .joined junction first rest =>
    simp only [Sentence.lexemes, List.append_assoc, List.cons_append, List.nil_append]
    refine .opening junction.word_proper.1 junction.word_proper.2 ?_
    refine first.scannable valid.1 (fun l found => plain l (List.mem_append_left _ found)) ?_
    exact scannable_lexemesOf rest valid.2 (fun l found => plain l (List.mem_append_right _ found))
      (.closing more)
  | .negated inner =>
    simp only [Sentence.lexemes, List.append_assoc, List.cons_append, List.nil_append]
    exact .opening (by decide) (List.all_eq_true.mp rfl) (inner.scannable valid plain (.closing more))

theorem scannable_lexemesOf (ss : List Sentence) {ls : List Lexeme} (valid : AllValid catalog ss)
    (plain : ∀ literal ∈ literalsOf ss, '"' ∉ literal.toList) (more : Scannable ls) :
    Scannable (lexemesOf ss ++ ls) := by
  match ss with
  | [] => exact more
  | s :: rest =>
    rw [lexemesOf, List.append_assoc]
    refine s.scannable valid.1 (fun l found => plain l (List.mem_append_left _ found)) ?_
    exact scannable_lexemesOf rest valid.2 (fun l found => plain l (List.mem_append_right _ found)) more

end

/-- Blanks around a literal do not change what it denotes. -/
theorem PadsTo.object?_eq {literal padded : String} (pads : PadsTo literal padded) :
    object? catalog padded = object? catalog literal := by
  obtain ⟨before, after, left, right, same⟩ := pads
  rw [object?, object?, same, Text.trim_append_blanks left right]

theorem PadsTo.plain {literal padded : String} (pads : PadsTo literal padded)
    (plain : '"' ∉ literal.toList) : '"' ∉ padded.toList := by
  obtain ⟨before, after, left, right, same⟩ := pads
  have away {blanks : List Char} (all : ∀ c ∈ blanks, Text.isBlank c = true) : '"' ∉ blanks :=
    fun found => absurd (all '"' found) (by decide)
  simp [same, away left, away right, plain]

mutual

theorem Pads.plain {s t : Sentence} (pads : Pads s t)
    (plain : ∀ literal ∈ s.literals, '"' ∉ literal.toList) :
    ∀ literal ∈ t.literals, '"' ∉ literal.toList := by
  match s, t, pads with
  | _, _, .test blanks =>
    simp only [Sentence.literals, List.forall_mem_singleton] at plain ⊢
    exact blanks.plain plain
  | _, _, .joined first others =>
    simp only [Sentence.literals, List.forall_mem_append] at plain ⊢
    exact ⟨first.plain plain.1, others.plain plain.2⟩
  | _, _, .negated inner => exact inner.plain plain

theorem AllPad.plain {ss ts : List Sentence} (pad : AllPad ss ts)
    (plain : ∀ literal ∈ literalsOf ss, '"' ∉ literal.toList) :
    ∀ literal ∈ literalsOf ts, '"' ∉ literal.toList := by
  match ss, ts, pad with
  | _, _, .nil => exact plain
  | _, _, .cons first others =>
    simp only [literalsOf, List.forall_mem_append] at plain ⊢
    exact ⟨first.plain plain.1, others.plain plain.2⟩

end

mutual

/-- With blanks around its literals a sentence stands for the same condition. -/
theorem Pads.denotes {s t : Sentence} {condition : Condition Atom} (pads : Pads s t)
    (denotes : Denotes catalog s condition) :
    Denotes catalog t condition := by
  match pads, denotes with
  | .test blanks, .test found named => exact .test (blanks.object?_eq.trans found) named
  | .joined first others, .joined one rest => exact .joined (first.denotes one) (others.denote rest)
  | .negated inner, .negated denotes => exact .negated (inner.denotes denotes)

theorem AllPad.denote {ss ts : List Sentence} {conditions : List (Condition Atom)} (pad : AllPad ss ts)
    (denote : AllDenote catalog ss conditions) : AllDenote catalog ts conditions := by
  match pad, denote with
  | .nil, .nil => exact .nil
  | .cons first others, .cons one rest => exact .cons (first.denotes one) (others.denote rest)

end

/-- A layout of a valid sentence whose literals have no quotes is read as that sentence, with some blanks
around its literals. -/
theorem Sentence.Renders.reads {s : Sentence} {text : String} (renders : s.Renders text)
    (valid : s.Valid catalog) (plain : ∀ literal ∈ s.literals, '"' ∉ literal.toList) :
    ∃ t, Pads s t ∧ Reads text t := by
  obtain ⟨t, pads, layout⟩ := renders
  obtain ⟨condition, denotes⟩ := s.valid_iff.mp valid
  have padded : t.Valid catalog := t.valid_iff.mpr ⟨condition, pads.denotes denotes⟩
  have scannable := t.scannable padded (pads.plain plain) .nil
  rw [List.append_nil] at scannable
  refine ⟨t, pads, ?_⟩
  rw [Reads, significant_tokenize, tokens, layout.significant_scan scannable]

/-- Every layout of a valid sentence whose literals have no quotes parses, with the spacing and the blanks around
literals as they like; and in every heap that can come about and has what the catalog names, the query tells of every
rule whether the sentence holds. -/
theorem parse_of_renders (catalog : Option Catalog) (s : Sentence) (text : String)
    (valid : s.Valid catalog) (plain : ∀ literal ∈ s.literals, '"' ∉ literal.toList)
    (renders : s.Renders text) :
    ∃ condition, parse catalog text = .ok condition ∧
      ∀ (heap : Heap) (rule : Rule), heap.Reachable → heap.HasRule rule →
        (∀ find, catalog = some find → ∀ name x, find name = some x → heap.Has x) →
          Tells rule (s.AsksBoth catalog heap.registry rule) (s.Holds catalog heap.registry rule)
            (holds heap.registry rule condition) := by
  obtain ⟨condition, denotes⟩ := s.valid_iff.mp valid
  obtain ⟨t, pads, reads⟩ := renders.reads valid plain
  refine ⟨condition, parse_of_reads reads (pads.denotes denotes), ?_⟩
  exact fun heap rule reachable has named => denotes.tells reachable.sound has named

/-- A negation over three lines, with blanks around a literal and words right behind quotes and parentheses, is false of
a rule whose source has the address. -/
theorem parse_of_renders_over_lines :
    ∃ condition, parse none "\t( not\r\n(has\" 10.0.0.1\t\"( in\nsrc) ) )" = .ok condition ∧
      holds copiedPair.registry original condition = .ok false := by
  have padded : PadsTo "10.0.0.1" " 10.0.0.1\t" :=
    ⟨[' '], ['\t'], List.all_eq_true.mp rfl, List.all_eq_true.mp rfl, rfl⟩
  have valid : (Sentence.negated (.test .has "10.0.0.1" (.enclosed "src"))).Valid none :=
    ⟨_, .source, rfl, rfl, by decide⟩
  have renders : (Sentence.negated (.test .has "10.0.0.1" (.enclosed "src"))).Renders
      "\t( not\r\n(has\" 10.0.0.1\t\"( in\nsrc) ) )" := by
    refine ⟨_, .negated (.test padded), ?_⟩
    have words := @Layout.finish false [] nofun
    have words := @Layout.closing false [' '] _ _ (by decide) words
    have words := @Layout.closing false [' '] _ _ (by decide) words
    have words := @Layout.closing true [] _ _ nofun words
    have words := @Layout.word true ['\n'] _ "src" _ (by decide) (fun _ => List.cons_ne_nil _ _) words
    have words := @Layout.opening false [] [' '] _ "in" _ nofun (by decide) words
    have words := @Layout.quoted true [] _ " 10.0.0.1\t" _ nofun words
    have words := @Layout.opening true ['\r', '\n'] [] _ "has" _ (by decide) nofun words
    exact @Layout.opening false ['\t'] [' '] _ "not" _ (by decide) (by decide) words
  obtain ⟨condition, parsed, tells⟩ := parse_of_renders none _ _ valid (by decide) renders
  have told := tells copiedPair original copiedPair_reachable copiedPair_hasRule (fun find given => by cases given)
  obtain ⟨answer, asked, meant⟩ := told.exists_answer (Or.inl (by decide))
  have within := (copiedPair_reachable.sound.hasObject_iff_holdsWithin copiedPair_hasRule.source
    (x := hostAt 167772161) rfl).mp (by decide +kernel)
  have passes : (Sentence.test .has "10.0.0.1" (.enclosed "src")).Holds none copiedPair.registry original :=
    ⟨_, .source, rfl, ⟨rfl, by decide⟩, within⟩
  have wrong : answer = false := Bool.eq_false_iff.mpr fun right => meant.mp right passes
  exact ⟨condition, parsed, wrong ▸ asked⟩

end Sentences

end Query

end Rulebase
