import Rulebase.Proofs.Policy.Sections

/-!
# How an extraction can fail

An extraction of a legible policy succeeds, or reports a defect of a section, unless one of its numerals is longer
than the limit. A policy that is not legible can fail in another way: a superscript two passes for a digit, so a
text of it passes for a numeral, and then cannot be read as one.
-/

namespace Rulebase.Policy

open Text

variable {document : Fields} {s t : Loading}

/-- Whatever the document, an extraction stores every section completely, or it fails with a defect of a section or
with a numeral; if the document is legible, that is one of its own and longer than the limit. -/
theorem ends_extract (reached : Reached s) {outcome : Extracted Unit} (ends : Ends (extract document) s outcome t) :
    (outcome = .ok () ∧ ∀ chapter, Complete document chapter s.inventory t) ∨
      ∃ chapter e, outcome = .error e ∧ LoadError.OfSection chapter document e := by
  rcases reached.settled.extract ends with ⟨passed, progress⟩ | ⟨_, chapter, _, e, _, _, _, failed, known, _⟩
  · exact Or.inl ⟨passed, fun chapter => progress.complete chapter (by cases chapter <;> decide)⟩
  · exact Or.inr ⟨chapter, e, failed, known⟩

/-- Every legible policy is extracted completely, or a defect of one of its sections is reported, or one of its
numerals is longer than the limit. -/
theorem extract_reports_defect (reached : Reached s) (legible : Legible document) :
    ∃ outcome t, Ends (extract document) s outcome t ∧
      ((outcome = .ok () ∧ ∀ chapter, Complete document chapter s.inventory t) ∨
        (∃ chapter cause, outcome = .error (.defect chapter cause)) ∨
        ∃ digits, numeralLimit < digits ∧ Long document digits ∧ outcome = .error (.numeral (.tooLong digits))) := by
  obtain ⟨outcome, t, ends⟩ : ∃ outcome t, Ends (extract document) s outcome t := ⟨_, _, rfl⟩
  refine ⟨outcome, t, ends, ?_⟩
  rcases ends_extract reached ends with complete | ⟨chapter, e, rfl, known⟩
  · exact Or.inl complete
  · cases known with
    | defect cause => exact Or.inr (Or.inl ⟨chapter, cause, rfl⟩)
    | @numeral cause limit =>
      cases cause with
      | tooLong digits => exact Or.inr (Or.inr ⟨digits, (limit legible).1, (limit legible).2, rfl⟩)
      | malformed base text => exact (limit legible).elim
      | tooLarge => exact (limit legible).elim

def portOf (number : String) : Fields :=
  [(.text "ports", .list [.mapping [(.text "name", .text "p"), (.text "port", .text number)]])]

theorem legible_portOf {number : String} (legible : Text.Legible number.toList) : Legible (portOf number) where
  writable := by
    simp [Writable, portOf, Value.isWritable, Value.itemsWritable, Value.entriesWritable]
  numerals chapter found read fields listed key isKey s given := by
    cases chapter with
    | networks =>
      cases (show Except.ok [] = Except.ok found from read)
      cases listed
    | ports =>
      cases (show Except.ok [[(.text "name", .text "p"), (.text "port", .text number)]] = Except.ok found from read)
      cases List.mem_singleton.mp listed
      cases List.mem_singleton.mp isKey
      cases (show Value.text number = Value.text s from given)
      exact legible
    | portRanges =>
      cases (show Except.ok [] = Except.ok found from read)
      cases listed
    | _ => cases isKey

/-- A row of ASCII digits is legible, and here makes a port. -/
theorem extract_ascii_port :
    Reached blank ∧ Legible (portOf "443") ∧
      ∃ t, Ends (extract (portOf "443")) blank (.ok ()) t ∧ Complete (portOf "443") .ports blank.inventory t := by
  have legible : Legible (portOf "443") := legible_portOf (Visible.legible (by decide))
  obtain ⟨outcome, t, ends, ended⟩ := extract_reports_defect reached_blank legible
  have passed : outcome = .ok () := (congrArg Prod.fst ends).symm.trans rfl
  subst passed
  rcases ended with ⟨_, complete⟩ | ⟨_, _, failed⟩ | ⟨_, _, _, failed⟩
  · exact ⟨reached_blank, legible, t, ends, complete .ports⟩
  · cases failed
  · cases failed

/-- A superscript two is a digit and no numeral. -/
theorem extract_superscript_port :
    Reached blank ∧ ∃ t, Ends (extract (portOf "²")) blank (.error (.numeral (.malformed 10 "²"))) t := by
  have failed : ((extract (portOf "²")).run.run blank).1 = .error (.numeral (.malformed 10 "²")) := rfl
  exact ⟨reached_blank, _, Prod.ext failed rfl⟩

end Rulebase.Policy
