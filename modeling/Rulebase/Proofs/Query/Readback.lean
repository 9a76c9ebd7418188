import Rulebase.Proofs.Group.Membership
import Rulebase.Proofs.Object.Written
import Rulebase.Proofs.Query.Forms
import Rulebase.Proofs.Query.Layout
import Rulebase.Store.Kinds

/-!
# Objects read back from their literals

A leaf as it is written matches the pattern of its kind, and is built again from the parts, under the label of what
queries are made of. What is built matches the leaf, and an object and its match are the same to groups and stores. So a
query for a written leaf finds it where the leaf itself is found.
-/

namespace Rulebase

open Text

namespace Leaf

def withLabel (label : Label) : Leaf → Leaf
  | host x => .host { x with toLabel := label }
  | network x => .network { x with toLabel := label }
  | range x => .range { x with toLabel := label }
  | port x => .port { x with toLabel := label }
  | portRange x => .portRange { x with toLabel := label }

@[simp] theorem kind_withLabel (label : Label) (x : Leaf) : (x.withLabel label).kind = x.kind := by
  cases x <;> rfl

@[simp] theorem family_withLabel (label : Label) (x : Leaf) : (x.withLabel label).family = x.family :=
  congrArg Kind.family (x.kind_withLabel label)

theorem same_withLabel (label : Label) (x : Leaf) : (x.withLabel label).same x = true := by
  refine same_iff.mpr ⟨x.kind_withLabel label, ?_⟩
  cases x <;> rfl

end Leaf

namespace Query

theorem figures_digits (n : Nat) : Figures (digits n) :=
  ⟨digits_ne_nil n, fun _ found => isDecimal_of_mem_digits found⟩

theorem quad_chars (a : Address) : Quad a.chars := by
  refine ⟨_, _, _, _, rfl, fun part listed => ?_⟩
  obtain ⟨n, octet, rfl⟩ : ∃ n ∈ a.octets, digits n = part := List.mem_map.mp listed
  exact ⟨figures_digits n, Address.length_digits_octet (a.octets_le n octet)⟩

theorem letters_name (p : Protocol) : Letters p.name.toList := by
  cases p <;> exact ⟨by decide, List.all_eq_true.mp rfl⟩

/-- From what is written of a leaf the leaf is built again, under the label of its kind. -/
theorem build_chars (x : Leaf) :
    (Literal.ofChars x.chars).build = .ok (.inl (x.withLabel (filterLabel x.kind))) := by
  cases x with
  | host x =>
    have address : Address.build (part x.address.chars) = .ok x.address := x.address.build_text
    rw [Leaf.chars, ofChars_host (quad_chars x.address), Literal.build, Host.build, address]
    rfl
  | network x =>
    have written : String.ofList (Leaf.network x).chars = x.cidr := (Leaf.network x).ofList_chars
    rw [Leaf.chars, ofChars_network (quad_chars x.address) (figures_digits x.length), Literal.build, ← Leaf.chars,
      written, Network.ofCidr_cidr]
    rfl
  | range x =>
    have built := Range.build_ends (filterLabel .range) x
    rw [Leaf.chars, ofChars_range (quad_chars x.first) (quad_chars x.last), Literal.build, part, part, ← Address.text,
      ← Address.text, built]
    rfl
  | port x =>
    have built := Port.build_parts (filterLabel .port) x
    rw [Leaf.chars, ofChars_port (letters_name x.protocol) (figures_digits x.number), Literal.build, part, part,
      String.ofList_toList, built]
    rfl
  | portRange x =>
    have built := PortRange.build_parts (filterLabel .portRange) x
    rw [Leaf.chars, ofChars_portRange (letters_name x.protocol) (figures_digits x.first) (figures_digits x.last),
      Literal.build, part, part, part, String.ofList_toList, built]
    rfl

variable {catalog : Option Catalog}

/-- A written leaf denotes the leaf under the label of its kind, whatever names are known. -/
theorem object?_written (catalog : Option Catalog) (x : Leaf) :
    object? catalog x.written = some (.leaf (x.withLabel (filterLabel x.kind))) := by
  have solid : trim x.written.toList = x.chars := by rw [x.toList_written, x.plain_chars.trim_eq]
  simp only [object?, solid, build_chars, if_neg x.chars_ne_nil]

/-- A test of one literal on a side that a word names, on one line. -/
def testText (verb : Verb) (literal word : String) : String :=
  "(" ++ verb.word ++ " \"" ++ literal ++ "\" in " ++ word ++ ")"

/-- A test on one line is read as what it is, if its literal has no quotes and its words are words. -/
theorem reads_testText (verb : Verb) {literal word : String} (plain : '"' ∉ literal.toList) (some : word.toList ≠ [])
    (proper : ∀ c ∈ word.toList, isWordChar c = true) :
    Reads (testText verb literal word) (.test verb literal (.bare word)) := by
  have blank : IsSpacing [' '] := by decide
  -- The empty spacings are written out, so that the text has the form of a layout.
  have text : (testText verb literal word).toList =
      [] ++ '(' :: ([] ++ (verb.word.toList ++ ([' '] ++ '"' :: (literal.toList ++ '"' :: ([' '] ++ ("in".toList ++
        ([' '] ++ (word.toList ++ ([] ++ ')' :: []))))))))) := by
    simp [testText]
  have layout : Layout false (Sentence.test verb literal (.bare word)).lexemes (testText verb literal word).toList := by
    rw [text]
    exact .opening nofun nofun <| .quoted blank <| .word blank nofun <| .word blank nofun <| .closing nofun <|
      .finish nofun
  have scannable : Scannable (Sentence.test verb literal (.bare word)).lexemes :=
    .opening verb.word_proper.1 verb.word_proper.2 <| .quoted plain <| .word (by decide) (List.all_eq_true.mp rfl) <|
      .word some proper <| .closing .nil
  rw [Reads, significant_tokenize, tokens, layout.significant_scan scannable]

section Tests

variable {x : Leaf} {word : String} {side : Side} {registry : Registry} {rule : Rule} {condition : Condition Atom}

theorem reads_written (verb : Verb) (x : Leaf) (known : side? word = some side) :
    Reads (testText verb x.written word) (.test verb x.written (.bare word)) := by
  obtain ⟨some, proper⟩ := side_word_proper known
  refine reads_testText verb ?_ some proper
  rw [x.toList_written]
  exact x.plain_chars.quote_notMem

/-- A test of a written leaf looks for the leaf under another label. -/
theorem parse_written (catalog : Option Catalog) (verb : Verb) (known : side? word = some side)
    (fits : x.family = .service ↔ side = .service) :
    parse catalog (testText verb x.written word) =
      .ok (.test (verb.atom (.leaf (x.withLabel (filterLabel x.kind))) side)) := by
  refine parse_of_reads (reads_written verb x known) (.test (object?_written catalog x) ⟨known, ?_⟩)
  rw [Object.family, Leaf.family_withLabel]
  exact fits

/-- A test of a written leaf parses on a fitting side only. -/
theorem fits_of_parse_written {verb : Verb} (known : side? word = some side)
    (parsed : parse catalog (testText verb x.written word) = .ok condition) :
    x.family = .service ↔ side = .service := by
  obtain ⟨s, reads, denotes⟩ := reads_of_parse parsed
  cases reads.unique (reads_written verb x known)
  cases denotes with
  | test found named =>
    cases (object?_written catalog x).symm.trans found
    cases known.symm.trans named.1
    have fits := named.2
    rwa [Object.family, Leaf.family_withLabel] at fits

/-- Whether a rule passes a test for a written leaf is whether its side has the leaf itself. -/
theorem holds_written (x : Leaf) (side : Side) (registry : Registry) (rule : Rule) :
    holds registry rule (.test (.has (.leaf (x.withLabel (filterLabel x.kind))) side)) =
      rule.ask registry side (·.hasObject · (.leaf x)) := by
  have same (registry : Registry) (g : Group) :=
    registry.hasObject_eq_of_same (g := g) (x.same_withLabel (filterLabel x.kind))
  simp only [holds, Condition.eval, Atom.holds, same]

theorem passes_written_iff (catalog : Option Catalog) (known : side? word = some side) :
    (∃ condition, parse catalog (testText .has x.written word) = .ok condition ∧
        holds registry rule condition = .ok true) ↔
      rule.ask registry side (·.hasObject · (.leaf x)) = .ok true := by
  rw [← holds_written]
  constructor
  · rintro ⟨condition, parsed, passed⟩
    have fits := fits_of_parse_written known parsed
    cases (parse_written catalog .has known fits).symm.trans parsed
    exact passed
  · intro passed
    obtain ⟨g, after, selected, asked⟩ := Rule.exists_of_ask ((holds_written x side registry rule).symm.trans passed)
    have family : x.family = g.family := Registry.family_of_hasObject asked
    have fits : x.family = .service ↔ side = .service := by rw [family, Rule.family_of_select selected]
    exact ⟨_, parse_written catalog .has known fits, passed⟩

end Tests

end Query

namespace Store

theorem hostsAt_written (store : Store Host) (x : Host) :
    store.hostsAt (.text (Leaf.host x).written) =
      .ok (store.entries.filter fun entry => (Leaf.host entry.2).same (.host x)) := by
  rw [hostsAt, Leaf.written, Address.build_text]
  rfl

theorem networksAt_written (store : Store Network) (x : Network) :
    store.networksAt (Leaf.network x).written =
      .ok (store.entries.filter fun entry => (Leaf.network entry.2).same (.network x)) := by
  rw [networksAt, Leaf.written, Network.ofCidr_cidr]
  rfl

theorem rangesAt_written (store : Store Range) (x : Range) :
    store.rangesAt (Leaf.range x).written =
      .ok (store.entries.filter fun entry => (Leaf.range entry.2).same (.range x)) := by
  rw [rangesAt, Leaf.written, Range.ofText_ends]
  rfl

end Store

namespace Query

/-- A leaf as it is written denotes a leaf of its kind that matches it, and a test for it on a side passes just when the
side has the leaf. The stores find the matches of what is written, in order. And the patterns of literals exclude one
another, so they can be tried in any order. -/
theorem written_reads_back (catalog : Option Catalog) (x : Leaf) :
    (∃ y, (∀ offset, denoted catalog x.written offset = .ok (.leaf y)) ∧ y.kind = x.kind ∧ y.same x = true) ∧
      (∀ word side, side? word = some side →
        ((x.family = .service ↔ side = .service) →
          ∃ condition, parse catalog (testText .has x.written word) = .ok condition ∧
            ∀ registry rule, holds registry rule condition = rule.ask registry side (·.hasObject · (.leaf x))) ∧
        ∀ registry rule,
          (∃ condition, parse catalog (testText .has x.written word) = .ok condition ∧
              holds registry rule condition = .ok true) ↔
            rule.ask registry side (·.hasObject · (.leaf x)) = .ok true) ∧
      (∀ (y : Host) (store : Store Host), store.hostsAt (.text (Leaf.host y).written) =
        .ok (store.entries.filter fun entry => (Leaf.host entry.2).same (.host y))) ∧
      (∀ (y : Network) (store : Store Network), store.networksAt (Leaf.network y).written =
        .ok (store.entries.filter fun entry => (Leaf.network entry.2).same (.network y))) ∧
      (∀ (y : Range) (store : Store Range), store.rangesAt (Leaf.range y).written =
        .ok (store.entries.filter fun entry => (Leaf.range entry.2).same (.range y))) ∧
      (∀ cs p q, Pattern.Matches p cs → Pattern.Matches q cs → p = q) ∧
      ∀ order : List Pattern, (∀ p, p ∈ order) →
        ∀ cs, order.find? (fun p => p.Matches cs) = (Literal.ofChars cs).pattern? := by
  refine ⟨⟨x.withLabel (filterLabel x.kind), fun offset => ?_, x.kind_withLabel _, x.same_withLabel _⟩,
    fun word side known => ⟨fun fits => ?_, fun registry rule => passes_written_iff catalog known⟩,
    fun y store => store.hostsAt_written y, fun y store => store.networksAt_written y,
    fun y store => store.rangesAt_written y, fun cs p q => Pattern.Matches.unique, fun order => find?_matches⟩
  · exact denoted_eq_ok.mpr (object?_written catalog x)
  · exact ⟨_, parse_written catalog .has known fits, holds_written x side⟩

/-- A network is found in the source of a rule by what is written of it, and patterns tried backwards find its own. -/
theorem written_reads_back_subnet :
    let office : Network :=
      { name := "office", address := .ofOctets 10 1 0 0, mask := .netmask 16
        isNetmask := by decide, isBase := by decide }
    (∃ condition, parse none "(has \"10.1.0.0/16\" in src)" = .ok condition ∧
      ∀ registry rule, holds registry rule condition =
        (registry.hasObject rule.source (.leaf (.network office))).mapError .refused) ∧
    [Pattern.service, .range, .network, .host].find? (fun p => p.Matches "10.1.0.0/16".toList) = some .network := by
  intro office
  have written : (Leaf.network office).written = "10.1.0.0/16" := by decide +kernel
  have readsBack := written_reads_back none (.network office)
  have fits : (Leaf.network office).family = .service ↔ Side.source = .service := by decide
  have test := (readsBack.2.1 "src" .source rfl).1 fits
  rw [testText, written] at test
  have order := readsBack.2.2.2.2.2.2 [.service, .range, .network, .host] fun p => by cases p <;> decide
  refine ⟨test, (order _).trans (by decide)⟩

end Query

end Rulebase
