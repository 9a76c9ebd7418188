import Rulebase.Proofs.Query.Parsing
import Rulebase.Proofs.Rule.Sides

/-!
# The meaning of queries

A test looks for its object in what a side of the rule offers: what the source, the destination or the service
holds at some depth, or for both ends together the ends themselves and what either of them holds. The words `and`,
`or` and `not` are the connectives. A query that parses can be evaluated on every rule, and its value there is what
its sentence says, except that a test of both ends fails when the number of the rule cannot be written.
-/

namespace Rulebase

theorem Family.eq_of_service_iff {f g : Family} (same : f = .service ↔ g = .service) : f = g := by
  cases f <;> cases g <;> simp_all

namespace Registry

theorem hasObject_total (registry : Registry) {g : Group} {x : Object} (family : x.family = g.family) :
    ∃ found, registry.hasObject g x = .ok found :=
  ⟨_, if_pos family⟩

/-- A group can be asked whether it covers an object of its family. -/
theorem groupContains_total (registry : Registry) {g : Group} {x : Object}
    (family : x.family = g.family) : ∃ covered, registry.groupContains g x = .ok covered := by
  unfold groupContains
  rw [if_pos family]
  cases x with
  | leaf y => exact ⟨_, rfl⟩
  | group h => exact ⟨_, rfl⟩

end Registry

namespace Query

variable {catalog : Option Catalog} {registry : Registry} {heap : Heap} {rule : Rule}

theorem Selection.Names.service_iff {selection : Selection} {object : Object} {side : Side}
    (named : selection.Names object side) : object.family = .service ↔ side = .service := by
  cases selection with
  | absent =>
    rw [Selection.names_absent_iff.mp named]
    cases object.family <;> simp [defaultSide]
  | bare word => exact named.2
  | enclosed word => exact named.2

theorem Selection.Names.unique {selection : Selection} {object : Object} {side other : Side}
    (left : selection.Names object side) (right : selection.Names object other) : side = other := by
  cases selection with
  | absent =>
    rw [Selection.names_absent_iff.mp left, Selection.names_absent_iff.mp right]
  | bare word => exact Option.some.inj (left.1.symm.trans right.1)
  | enclosed word => exact Option.some.inj (left.1.symm.trans right.1)

/-- A rule passes a test of one object on one side: the side offers a match of the object, or leaves that cover each
of the object's own, of which there are some. -/
def Verb.Passes (registry : Registry) (rule : Rule) (object : Object) (side : Side) : Verb → Prop
  | has => ∃ m, rule.Offers registry side m ∧ registry.sameObject m object = true
  | contains =>
    registry.leavesOf object ≠ [] ∧ ∀ l ∈ registry.leavesOf object,
      ∃ k, rule.Offers registry side (.leaf k) ∧ k.covers l = true

mutual

/-- What a sentence says about a rule. -/
def Sentence.Holds (catalog : Option Catalog) (registry : Registry) (rule : Rule) : Sentence → Prop
  | .test verb literal selection =>
    ∃ object side, object? catalog literal = some object ∧ selection.Names object side ∧
      verb.Passes registry rule object side
  | .joined .all first rest =>
    first.Holds catalog registry rule ∧ AllHold catalog registry rule rest
  | .joined .any first rest =>
    first.Holds catalog registry rule ∨ AnyHolds catalog registry rule rest
  | .negated sentence => ¬ sentence.Holds catalog registry rule

def AllHold (catalog : Option Catalog) (registry : Registry) (rule : Rule) : List Sentence → Prop
  | [] => True
  | sentence :: rest =>
    sentence.Holds catalog registry rule ∧ AllHold catalog registry rule rest

def AnyHolds (catalog : Option Catalog) (registry : Registry) (rule : Rule) : List Sentence → Prop
  | [] => False
  | sentence :: rest =>
    sentence.Holds catalog registry rule ∨ AnyHolds catalog registry rule rest

end

mutual

/-- The evaluation of a sentence from left to right, no further than needed, comes to a test of both ends. -/
def Sentence.AsksBoth (catalog : Option Catalog) (registry : Registry) (rule : Rule) : Sentence → Prop
  | .test _ literal selection =>
    ∃ object, object? catalog literal = some object ∧ selection.Names object .any
  | .joined .all first rest =>
    first.AsksBoth catalog registry rule ∨
      first.Holds catalog registry rule ∧ AllAskBoth catalog registry rule rest
  | .joined .any first rest =>
    first.AsksBoth catalog registry rule ∨
      ¬ first.Holds catalog registry rule ∧ AnyAsksBoth catalog registry rule rest
  | .negated sentence => sentence.AsksBoth catalog registry rule

/-- The evaluation goes on while the sentences hold. -/
def AllAskBoth (catalog : Option Catalog) (registry : Registry) (rule : Rule) : List Sentence → Prop
  | [] => False
  | sentence :: rest =>
    sentence.AsksBoth catalog registry rule ∨
      sentence.Holds catalog registry rule ∧ AllAskBoth catalog registry rule rest

/-- The evaluation goes on until a sentence holds. -/
def AnyAsksBoth (catalog : Option Catalog) (registry : Registry) (rule : Rule) : List Sentence → Prop
  | [] => False
  | sentence :: rest =>
    sentence.AsksBoth catalog registry rule ∨
      ¬ sentence.Holds catalog registry rule ∧ AnyAsksBoth catalog registry rule rest

end

/-- An evaluation on a rule has the right value, unless it comes to a test of both ends and the number of the rule
cannot be written: then it fails for that. -/
inductive Tells (rule : Rule) (asksBoth holds : Prop) : Except TestError Bool → Prop where
  | answers {answer : Bool} (free : rule.number.isWritable = true ∨ ¬ asksBoth) (meant : answer = true ↔ holds) :
    Tells rule asksBoth holds (.ok answer)
  | fails (unwritable : rule.number.isWritable = false) (reached : asksBoth) :
    Tells rule asksBoth holds (.error (.numeral .tooLarge))

namespace Tells

variable {outcome first rest : Except TestError Bool} {asks asks' holds holds' : Prop}

theorem congr (tells : Tells rule asks holds outcome) (sameAsks : asks ↔ asks') (same : holds ↔ holds') :
    Tells rule asks' holds' outcome := by
  rwa [← sameAsks, ← same]

theorem exists_answer (tells : Tells rule asks holds outcome) (free : rule.number.isWritable = true ∨ ¬ asks) :
    ∃ answer, outcome = .ok answer ∧ (answer = true ↔ holds) := by
  cases tells with
  | answers _ meant => exact ⟨_, rfl, meant⟩
  | fails unwritable reached => simp [unwritable, reached] at free

theorem eq_true_iff (tells : Tells rule asks holds outcome) :
    outcome = .ok true ↔ (rule.number.isWritable = true ∨ ¬ asks) ∧ holds := by
  cases tells with
  | answers free meant => simp [free, meant]
  | fails unwritable reached => simp [unwritable, reached]

theorem not (tells : Tells rule asks holds outcome) : Tells rule asks (¬ holds) (do return !(← outcome)) := by
  cases tells with
  | answers free meant => exact .answers free (by simp [← meant])
  | fails unwritable reached => exact .fails unwritable reached

theorem and (here : Tells rule asks holds first) (there : Tells rule asks' holds' rest) :
    Tells rule (asks ∨ holds ∧ asks') (holds ∧ holds') (do if ← first then rest else pure false) := by
  cases here with
  | fails unwritable reached => exact .fails unwritable (Or.inl reached)
  | @answers answer free meant =>
    cases answer with
    | false =>
      have fails : ¬ holds := fun held => Bool.false_ne_true (meant.mpr held)
      exact .answers (by simpa [fails] using free) (by simp [fails])
    | true =>
      have held : holds := meant.mp rfl
      cases there with
      | answers free' meant' => exact .answers (by simp only [held]; tauto) (by simpa [held] using meant')
      | fails unwritable reached => exact .fails unwritable (Or.inr ⟨held, reached⟩)

theorem or (here : Tells rule asks holds first) (there : Tells rule asks' holds' rest) :
    Tells rule (asks ∨ ¬ holds ∧ asks') (holds ∨ holds') (do if ← first then pure true else rest) := by
  cases here with
  | fails unwritable reached => exact .fails unwritable (Or.inl reached)
  | @answers answer free meant =>
    cases answer with
    | true =>
      have held : holds := meant.mp rfl
      exact .answers (by simpa [held] using free) (by simp [held])
    | false =>
      have fails : ¬ holds := fun held => Bool.false_ne_true (meant.mpr held)
      cases there with
      | answers free' meant' => exact .answers (by simp only [fails]; tauto) (by simpa [fails] using meant')
      | fails unwritable reached => exact .fails unwritable (Or.inr ⟨fails, reached⟩)

end Tells

/-- A test of an object on a side that fits it tells whether the rule passes. -/
theorem Verb.tells_atom (verb : Verb) (sound : heap.Sound) (has : heap.HasRule rule) {object : Object} {side : Side}
    (known : heap.Knows object) (fits : object.family = .service ↔ side = .service) :
    Tells rule (side = .any) (verb.Passes heap.registry rule object side)
      ((verb.atom object side).holds heap.registry rule) := by
  by_cases stops : side = .any ∧ rule.number.isWritable = false
  · obtain ⟨rfl, unwritable⟩ := stops
    cases verb with
    | has =>
      rw [Verb.atom, Atom.holds, Rule.ask_of_unwritable unwritable]
      exact .fails unwritable rfl
    | contains =>
      rw [Verb.atom, Atom.holds, Rule.ask_of_unwritable unwritable]
      exact .fails unwritable rfl
  · have free : rule.number.isWritable = true ∨ ¬ side = .any := by
      cases writable : rule.number.isWritable <;> simp_all
    have selects : side = .any → rule.number.isWritable = true := fun any => free.resolve_right (not_not_intro any)
    obtain ⟨g, after, selected⟩ := Rule.exists_select selects heap.registry
    have family : object.family = g.family :=
      Family.eq_of_service_iff (fits.trans (Rule.family_of_select selected).symm)
    cases verb with
    | has =>
      obtain ⟨found, asked⟩ := after.hasObject_total family
      have meant := sound.select_hasObject_iff has known selected family
      rw [asked, Except.ok.injEq] at meant
      rw [Verb.atom, Atom.holds, Rule.ask_of_select selected, asked]
      exact .answers free meant
    | contains =>
      obtain ⟨covered, asked⟩ := after.groupContains_total family
      have meant := sound.select_groupContains_iff has known selected family
      rw [asked, Except.ok.injEq] at meant
      rw [Verb.atom, Atom.holds, Rule.ask_of_select selected, asked]
      exact .answers free meant

/-- What a literal denotes is known in a heap that has what the catalog names. -/
theorem knows_of_object? {literal : String} {x : Object}
    (named : ∀ find, catalog = some find → ∀ name y, find name = some y → heap.Has y)
    (found : object? catalog literal = some x) : heap.Knows x := by
  simp only [object?] at found
  split at found
  · cases found
  · split at found
    · cases found
      trivial
    · rename_i name _
      cases given : catalog with
      | none =>
        rw [given] at found
        cases found
        exact Or.inr rfl
      | some find =>
        rw [given] at found
        exact (named find given name x found).knows
    · cases found

section Test

variable {verb : Verb} {literal : String} {selection : Selection} {object : Object} {side : Side}

theorem Sentence.holds_test (found : object? catalog literal = some object) (named : selection.Names object side) :
    (Sentence.test verb literal selection).Holds catalog registry rule ↔
      verb.Passes registry rule object side := by
  simp only [Sentence.Holds]
  constructor
  · rintro ⟨object', side', found', named', passes⟩
    cases found.symm.trans found'
    cases named.unique named'
    exact passes
  · intro passes
    exact ⟨object, side, found, named, passes⟩

theorem Sentence.asksBoth_test (found : object? catalog literal = some object)
    (named : selection.Names object side) :
    (Sentence.test verb literal selection).AsksBoth catalog registry rule ↔ side = .any := by
  simp only [Sentence.AsksBoth]
  constructor
  · rintro ⟨object', found', named'⟩
    cases found.symm.trans found'
    exact named.unique named'
  · rintro rfl
    exact ⟨object, found, named⟩

end Test

mutual

/-- What a sentence stands for tells whether the sentence holds. -/
theorem Denotes.tells {s : Sentence} {condition : Condition Atom} (denotes : Denotes catalog s condition)
    (sound : heap.Sound) (has : heap.HasRule rule)
    (named : ∀ find, catalog = some find → ∀ name x, find name = some x → heap.Has x) :
    Tells rule (s.AsksBoth catalog heap.registry rule) (s.Holds catalog heap.registry rule)
      (holds heap.registry rule condition) := by
  match s, denotes with
  | .test verb _ _, .test found selects =>
    have tells := verb.tells_atom sound has (knows_of_object? named found) selects.service_iff
    exact tells.congr (Sentence.asksBoth_test found selects).symm (Sentence.holds_test found selects).symm
  | .joined .all _ _, .joined first others =>
    exact (first.tells sound has named).and (others.tells_all sound has named)
  | .joined .any _ _, .joined first others =>
    exact (first.tells sound has named).or (others.tells_any sound has named)
  | .negated _, .negated inner => exact (inner.tells sound has named).not

theorem AllDenote.tells_all {ss : List Sentence} {conditions : List (Condition Atom)}
    (denote : AllDenote catalog ss conditions) (sound : heap.Sound) (has : heap.HasRule rule)
    (named : ∀ find, catalog = some find → ∀ name x, find name = some x → heap.Has x) :
    Tells rule (AllAskBoth catalog heap.registry rule ss) (AllHold catalog heap.registry rule ss)
      (Condition.evalAll (Atom.holds heap.registry rule) conditions) := by
  match ss, denote with
  | _, .nil => exact .answers (Or.inr id) (by simp [AllHold])
  | _, .cons first others => exact (first.tells sound has named).and (others.tells_all sound has named)

theorem AllDenote.tells_any {ss : List Sentence} {conditions : List (Condition Atom)}
    (denote : AllDenote catalog ss conditions) (sound : heap.Sound) (has : heap.HasRule rule)
    (named : ∀ find, catalog = some find → ∀ name x, find name = some x → heap.Has x) :
    Tells rule (AnyAsksBoth catalog heap.registry rule ss) (AnyHolds catalog heap.registry rule ss)
      (Condition.evalAny (Atom.holds heap.registry rule) conditions) := by
  match ss, denote with
  | _, .nil => exact .answers (Or.inr id) (by simp [AnyHolds])
  | _, .cons first others => exact (first.tells sound has named).or (others.tells_any sound has named)

end

mutual

/-- The valid sentences are those that stand for a condition. -/
theorem Sentence.valid_iff (s : Sentence) :
    s.Valid catalog ↔ ∃ condition, Denotes catalog s condition := by
  match s with
  | .test verb literal selection =>
    constructor
    · rintro ⟨object, side, found, named⟩
      exact ⟨_, .test found named⟩
    · rintro ⟨_, denotes⟩
      cases denotes with
      | test found named => exact ⟨_, _, found, named⟩
  | .joined junction first rest =>
    constructor
    · rintro ⟨one, others⟩
      obtain ⟨condition, denotes⟩ := first.valid_iff.mp one
      obtain ⟨conditions, denote⟩ := (allValid_iff rest).mp others
      exact ⟨_, .joined denotes denote⟩
    · rintro ⟨_, denotes⟩
      cases denotes with
      | joined one others =>
        exact ⟨first.valid_iff.mpr ⟨_, one⟩, (allValid_iff rest).mpr ⟨_, others⟩⟩
  | .negated inner =>
    constructor
    · intro valid
      obtain ⟨condition, denotes⟩ := inner.valid_iff.mp valid
      exact ⟨_, .negated denotes⟩
    · rintro ⟨_, denotes⟩
      cases denotes with
      | negated denotes => exact inner.valid_iff.mpr ⟨_, denotes⟩

theorem allValid_iff (ss : List Sentence) :
    AllValid catalog ss ↔ ∃ conditions, AllDenote catalog ss conditions := by
  match ss with
  | [] => exact ⟨fun _ => ⟨[], .nil⟩, fun _ => trivial⟩
  | s :: rest =>
    constructor
    · rintro ⟨one, others⟩
      obtain ⟨condition, denotes⟩ := s.valid_iff.mp one
      obtain ⟨conditions, denote⟩ := (allValid_iff rest).mp others
      exact ⟨_, .cons denotes denote⟩
    · rintro ⟨_, denote⟩
      cases denote with
      | cons one others => exact ⟨s.valid_iff.mpr ⟨_, one⟩, (allValid_iff rest).mpr ⟨_, others⟩⟩

end

/-- No fault stands among the tokens of a text written as a sentence. -/
theorem Reads.clean {text : String} {s : Sentence} (reads : Reads text s) :
    ∀ token ∈ tokenize text, ∀ fault, token.lexeme ≠ .fault fault := by
  intro token scanned fault faulty
  have kept : .fault fault ∈ significant (tokenize text) :=
    List.mem_filter.mpr ⟨List.mem_map.mpr ⟨token, scanned, faulty⟩, by simp⟩
  rw [reads] at kept
  rcases List.mem_append.mp kept with inside | last
  · exact s.fault_notMem_lexemes fault inside
  · simp at last

/-- A text parses just when its tokens, line feeds left out, have no fault among them and are one valid
sentence; there is one such sentence at most; and in every heap that can come about and has what the catalog names, the
query tells of every rule whether the sentence holds. -/
theorem parse_iff_sentence (catalog : Option Catalog) (text : String) :
    ((∃ condition, parse catalog text = .ok condition) ↔
      (∀ token ∈ tokenize text, ∀ fault, token.lexeme ≠ .fault fault) ∧
        ∃ s, Reads text s ∧ s.Valid catalog) ∧
    (∀ s t, Reads text s → Reads text t → s = t) ∧
    ∀ condition s, parse catalog text = .ok condition → Reads text s →
      ∀ (heap : Heap) (rule : Rule), heap.Reachable → heap.HasRule rule →
        (∀ find, catalog = some find → ∀ name x, find name = some x → heap.Has x) →
          Tells rule (s.AsksBoth catalog heap.registry rule) (s.Holds catalog heap.registry rule)
            (holds heap.registry rule condition) := by
  refine ⟨⟨?_, ?_⟩, fun s t => Reads.unique, ?_⟩
  · rintro ⟨condition, parsed⟩
    obtain ⟨s, reads, denotes⟩ := reads_of_parse parsed
    exact ⟨reads.clean, s, reads, s.valid_iff.mpr ⟨condition, denotes⟩⟩
  · rintro ⟨_, s, reads, valid⟩
    obtain ⟨condition, denotes⟩ := s.valid_iff.mp valid
    exact ⟨condition, parse_of_reads reads denotes⟩
  · intro condition s parsed reads heap rule reachable has named
    obtain ⟨t, readsToo, denotes⟩ := reads_of_parse parsed
    cases reads.unique readsToo
    exact denotes.tells reachable.sound has named

/-- The host that a query means by an address. -/
def hostAt (n : Nat) : Object :=
  .leaf (.host { toLabel := filterLabel .host, address := .ofNat n })

/-- A negated test written over two lines, without a side, is false of a rule whose destination has the address. -/
theorem exists_parse_negated_test :
    ∃ condition, parse none "(not\n(has \"10.0.0.2\"))" = .ok condition ∧
      holds copiedPair.registry original condition = .ok false := by
  have reads : Reads "(not\n(has \"10.0.0.2\"))" (.negated (.test .has "10.0.0.2" .absent)) := by
    unfold Reads
    decide
  obtain ⟨parses, -, tells⟩ := parse_iff_sentence none "(not\n(has \"10.0.0.2\"))"
  obtain ⟨condition, parsed⟩ := parses.mpr ⟨reads.clean, _, reads, _, .any, rfl, rfl⟩
  have told := tells condition _ parsed reads copiedPair original copiedPair_reachable copiedPair_hasRule
    (fun find given => by cases given)
  obtain ⟨answer, asked, meant⟩ := told.exists_answer (Or.inl (by decide))
  obtain ⟨m, within, same⟩ := (copiedPair_reachable.sound.hasObject_iff_holdsWithin copiedPair_hasRule.destination
    (x := hostAt 167772162) rfl).mp (by decide +kernel)
  have passes : (Sentence.test .has "10.0.0.2" .absent).Holds none copiedPair.registry original :=
    ⟨_, .any, rfl, rfl, m, ⟨_, Or.inr rfl, Or.inr within⟩, same⟩
  have wrong : answer = false := Bool.eq_false_iff.mpr fun right => meant.mp right passes
  exact ⟨condition, parsed, wrong ▸ asked⟩

end Query

end Rulebase
