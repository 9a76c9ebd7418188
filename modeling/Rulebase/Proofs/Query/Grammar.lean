import Rulebase.Query.Parse

/-!
# The grammar of queries

A sentence is a query as a tree, and its lexemes are the tokens it is written with. Lexemes can be
taken for a sentence in one way only. A sentence is valid when every literal denotes an object and
every side is one where that object can stand, and then it stands for a condition.
-/

namespace Rulebase.Query

inductive Verb where
  | has
  | contains
  deriving DecidableEq, Repr

def Verb.word : Verb → String
  | has => "has"
  | contains => "contains"

/-- The side that a test names: none at all, a bare one, or one in parentheses. -/
inductive Selection where
  | absent
  | bare (word : String)
  | enclosed (word : String)
  deriving DecidableEq, Repr

/-- A query as a tree. A junction joins at least one sentence. -/
inductive Sentence where
  | test (verb : Verb) (literal : String) (selection : Selection)
  | joined (junction : Junction) (first : Sentence) (rest : List Sentence)
  | negated (sentence : Sentence)
  deriving Repr

def Selection.lexemes : Selection → List Lexeme
  | absent => []
  | bare word => [.parameter "in", .parameter word]
  | enclosed word => [.leftParen, .keyword "in", .parameter word, .rightParen]

mutual

def Sentence.lexemes : Sentence → List Lexeme
  | .test verb literal selection =>
    [.leftParen, .keyword verb.word, .quote, .parameter literal, .quote] ++ selection.lexemes ++
      [.rightParen]
  | .joined junction first rest =>
    [.leftParen, .keyword junction.word] ++ first.lexemes ++ lexemesOf rest ++ [.rightParen]
  | .negated sentence => [.leftParen, .keyword "not"] ++ sentence.lexemes ++ [.rightParen]

def lexemesOf : List Sentence → List Lexeme
  | [] => []
  | sentence :: rest => sentence.lexemes ++ lexemesOf rest

end

def significant (tokens : List Token) : List Lexeme :=
  (tokens.map Token.lexeme).filter (· ≠ .newline)

/-- A text is written in the tokens of a sentence and nothing else, line feeds apart. -/
def Reads (text : String) (sentence : Sentence) : Prop :=
  significant (tokenize text) = sentence.lexemes ++ [.finish]

def object? (catalog : Option Catalog) (literal : String) : Option Object :=
  let cs := Text.trim literal.toList
  if cs = [] then none
  else match (Literal.ofChars cs).build with
    | .ok (.inl leaf) => some (.leaf leaf)
    | .ok (.inr name) => lookup catalog name
    | .error _ => none

/-- The side that a selection names for an object. Services stand with the service of a rule and nothing
else does; without a word, other objects stand with source and destination together. -/
def Selection.Names (object : Object) : Selection → Side → Prop
  | absent, side => if object.family = .service then side = .service else side = .any
  | bare word, side | enclosed word, side =>
    side? word = some side ∧ (object.family = .service ↔ side = .service)

def Verb.atom : Verb → Object → Side → Atom
  | has => .has
  | contains => .contains

def Junction.condition : Junction → List (Condition Atom) → Condition Atom
  | all => .all
  | any => .any

mutual

/-- A sentence stands for a condition. -/
inductive Denotes (catalog : Option Catalog) : Sentence → Condition Atom → Prop where
  | test {verb : Verb} {literal : String} {selection : Selection} {object : Object} {side : Side}
      (found : object? catalog literal = some object) (named : selection.Names object side) :
      Denotes catalog (.test verb literal selection) (.test (verb.atom object side))
  | joined {junction : Junction} {sentence : Sentence} {rest : List Sentence}
      {condition : Condition Atom} {conditions : List (Condition Atom)}
      (first : Denotes catalog sentence condition) (others : AllDenote catalog rest conditions) :
      Denotes catalog (.joined junction sentence rest) (junction.condition (condition :: conditions))
  | negated {sentence : Sentence} {condition : Condition Atom}
      (inner : Denotes catalog sentence condition) :
      Denotes catalog (.negated sentence) (.not condition)

inductive AllDenote (catalog : Option Catalog) : List Sentence → List (Condition Atom) → Prop where
  | nil : AllDenote catalog [] []
  | cons {sentence : Sentence} {rest : List Sentence} {condition : Condition Atom}
      {conditions : List (Condition Atom)} (first : Denotes catalog sentence condition)
      (others : AllDenote catalog rest conditions) :
      AllDenote catalog (sentence :: rest) (condition :: conditions)

end

mutual

/-- Every literal of a sentence denotes an object, and every selection a side for it. -/
def Sentence.Valid (catalog : Option Catalog) : Sentence → Prop
  | .test _ literal selection =>
    ∃ object side, object? catalog literal = some object ∧ selection.Names object side
  | .joined _ first rest => first.Valid catalog ∧ AllValid catalog rest
  | .negated sentence => sentence.Valid catalog

def AllValid (catalog : Option Catalog) : List Sentence → Prop
  | [] => True
  | sentence :: rest => sentence.Valid catalog ∧ AllValid catalog rest

end

theorem Selection.names_absent_iff {object : Object} {side : Side} :
    Selection.absent.Names object side ↔ side = defaultSide object.family := by
  unfold Names
  cases object.family <;> rfl

theorem Verb.word_inj {v w : Verb} : v.word = w.word ↔ v = w := by
  cases v <;> cases w <;> decide

theorem Junction.word_inj {j k : Junction} : j.word = k.word ↔ j = k := by
  cases j <;> cases k <;> decide

theorem Verb.word_ne_junction (v : Verb) (j : Junction) : v.word ≠ j.word := by
  cases v <;> cases j <;> decide

theorem Verb.word_ne_not (v : Verb) : v.word ≠ "not" := by
  cases v <;> decide

theorem Junction.word_ne_not (j : Junction) : j.word ≠ "not" := by
  cases j <;> decide

/-- A sentence begins with an opening parenthesis. -/
theorem Sentence.exists_cons (s : Sentence) : ∃ body, s.lexemes = .leftParen :: body := by
  cases s with
  | test verb literal selection => exact ⟨_, rfl⟩
  | joined junction first rest => exact ⟨_, rfl⟩
  | negated sentence => exact ⟨_, rfl⟩

mutual

theorem Sentence.fault_notMem_lexemes (s : Sentence) (fault : Fault) : .fault fault ∉ s.lexemes := by
  match s with
  | .test verb literal selection => cases selection <;> simp [Sentence.lexemes, Selection.lexemes]
  | .joined junction first rest =>
    simp [Sentence.lexemes, first.fault_notMem_lexemes fault, fault_notMem_lexemesOf rest fault]
  | .negated inner => simp [Sentence.lexemes, inner.fault_notMem_lexemes fault]

theorem fault_notMem_lexemesOf (ss : List Sentence) (fault : Fault) :
    .fault fault ∉ lexemesOf ss := by
  match ss with
  | [] => simp [lexemesOf]
  | s :: rest => simp [lexemesOf, s.fault_notMem_lexemes fault, fault_notMem_lexemesOf rest fault]

end

/-- A selection is told from what stands behind it. -/
theorem Selection.lexemes_inj {s t : Selection} {more more' : List Lexeme}
    (same : s.lexemes ++ .rightParen :: more = t.lexemes ++ .rightParen :: more') :
    s = t ∧ more = more' := by
  cases s <;> cases t <;> simp_all [Selection.lexemes]

mutual

theorem Sentence.lexemes_inj (s t : Sentence) {more more' : List Lexeme}
    (same : s.lexemes ++ more = t.lexemes ++ more') : s = t ∧ more = more' := by
  match s, t with
  | .test v l a, .test w m b =>
    simp only [Sentence.lexemes, List.cons_append, List.nil_append, List.append_assoc,
      List.cons.injEq, Lexeme.keyword.injEq, Lexeme.parameter.injEq, true_and] at same
    obtain ⟨verbs, literals, selections⟩ := same
    obtain ⟨rfl, rest⟩ := Selection.lexemes_inj selections
    exact ⟨by rw [Verb.word_inj.mp verbs, literals], rest⟩
  | .joined j f ss, .joined k g ts =>
    simp only [Sentence.lexemes, List.cons_append, List.nil_append, List.append_assoc,
      List.cons.injEq, Lexeme.keyword.injEq, true_and] at same
    obtain ⟨junctions, operands⟩ := same
    obtain ⟨rfl, others⟩ := f.lexemes_inj g operands
    obtain ⟨rfl, rest⟩ := lexemesOf_inj ss ts others
    exact ⟨by rw [Junction.word_inj.mp junctions], rest⟩
  | .negated s, .negated t =>
    simp only [Sentence.lexemes, List.cons_append, List.nil_append, List.append_assoc,
      List.cons.injEq, true_and] at same
    obtain ⟨rfl, rest⟩ := s.lexemes_inj t same
    exact ⟨rfl, (List.cons.inj rest).2⟩
  | .test v _ _, .joined j _ _ => simp [Sentence.lexemes, v.word_ne_junction j] at same
  | .joined j _ _, .test v _ _ => simp [Sentence.lexemes, (v.word_ne_junction j).symm] at same
  | .test v _ _, .negated _ => simp [Sentence.lexemes, v.word_ne_not] at same
  | .negated _, .test v _ _ => simp [Sentence.lexemes, v.word_ne_not.symm] at same
  | .joined j _ _, .negated _ => simp [Sentence.lexemes, j.word_ne_not] at same
  | .negated _, .joined j _ _ => simp [Sentence.lexemes, j.word_ne_not.symm] at same

/-- Sentences in a row are told from the closing parenthesis behind them. -/
theorem lexemesOf_inj (ss ts : List Sentence) {more more' : List Lexeme}
    (same : lexemesOf ss ++ .rightParen :: more = lexemesOf ts ++ .rightParen :: more') :
    ss = ts ∧ more = more' := by
  match ss, ts with
  | [], [] => exact ⟨rfl, (List.cons.inj same).2⟩
  | [], t :: _ =>
    obtain ⟨body, opens⟩ := t.exists_cons
    simp [lexemesOf, opens] at same
  | s :: _, [] =>
    obtain ⟨body, opens⟩ := s.exists_cons
    simp [lexemesOf, opens] at same
  | s :: ss, t :: ts =>
    simp only [lexemesOf, List.append_assoc] at same
    obtain ⟨rfl, others⟩ := s.lexemes_inj t same
    obtain ⟨rfl, rest⟩ := lexemesOf_inj ss ts others
    exact ⟨rfl, rest⟩

end

/-- A text reads as one sentence at most. -/
theorem Reads.unique {text : String} {s t : Sentence} (left : Reads text s) (right : Reads text t) :
    s = t :=
  (s.lexemes_inj t (left.symm.trans right)).1

end Rulebase.Query
