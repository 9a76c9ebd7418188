import Rulebase.Proofs.Policy.Filling

/-!
# What the entries of leaves are called

A leaf is built with a label and keeps it, whatever its parts are. So what an entry is read as has the name that the
entry gives.
-/

namespace Rulebase

variable {given : Label}

theorem Host.toLabel_of_build {address : Value} {x : Host} (made : Host.build given address = .ok x) :
    x.toLabel = given := by
  obtain ⟨_, _, made⟩ := bind_eq_ok_iff.mp made
  cases made
  rfl

theorem Network.toLabel_of_ofMask {address : Address} {mask : { mask : Address // mask.isNetmask = true }} {x : Network}
    (made : Network.ofMask given address mask = .ok x) : x.toLabel = given := by
  unfold Network.ofMask at made
  split at made
  · cases made
    rfl
  · cases made

theorem Network.toLabel_of_build {address mask : Value} {x : Network} (made : Network.build given address mask = .ok x) :
    x.toLabel = given := by
  obtain ⟨_, _, made⟩ := bind_eq_ok_iff.mp made
  obtain ⟨_, _, made⟩ := bind_eq_ok_iff.mp made
  exact Network.toLabel_of_ofMask made

theorem Network.toLabel_of_ofCidr {cidr : String} {x : Network} (made : Network.ofCidr given cidr = .ok x) :
    x.toLabel = given := by
  unfold Network.ofCidr at made
  dsimp only at made
  split at made
  · cases made
  · obtain ⟨_, _, made⟩ := bind_eq_ok_iff.mp made
    obtain ⟨_, _, made⟩ := bind_eq_ok_iff.mp made
    split at made
    · exact Network.toLabel_of_ofMask made
    · cases made

theorem Range.toLabel_of_build {first last : Value} {x : Range} (made : Range.build given first last = .ok x) :
    x.toLabel = given := by
  obtain ⟨_, _, made⟩ := bind_eq_ok_iff.mp made
  obtain ⟨_, _, made⟩ := bind_eq_ok_iff.mp made
  split at made
  · cases made
    rfl
  · cases made

theorem Range.toLabel_of_ofText {text : String} {x : Range} (made : Range.ofText given text = .ok x) :
    x.toLabel = given := by
  unfold Range.ofText at made
  split at made
  · exact Range.toLabel_of_build made
  · cases made

theorem Port.toLabel_of_build {number protocol : Value} {x : Port} (made : Port.build given number protocol = .ok x) :
    x.toLabel = given := by
  obtain ⟨_, _, made⟩ := bind_eq_ok_iff.mp made
  obtain ⟨_, _, made⟩ := bind_eq_ok_iff.mp made
  cases made
  rfl

theorem PortRange.toLabel_of_build {first last protocol : Value} {x : PortRange}
    (made : PortRange.build given first last protocol = .ok x) : x.toLabel = given := by
  obtain ⟨_, _, made⟩ := bind_eq_ok_iff.mp made
  obtain ⟨_, _, made⟩ := bind_eq_ok_iff.mp made
  obtain ⟨_, _, made⟩ := bind_eq_ok_iff.mp made
  split at made
  · cases made
    rfl
  · cases made

namespace Policy

variable {fields : Fields}

theorem built_eq_ok {α : Type} {chapter : Chapter} {kind : StoreKind} {name : String} {x : Built α} {y : α}
    (made : built chapter kind name x = .ok y) : x = .ok y := by
  cases x with
  | ok x =>
    cases made
    rfl
  | error cause =>
    cases cause with
    | invalid cause => exact absurd made (blame_ne_ok _ _)
    | numeral cause => cases made

/-- What has the label of an entry has the name that the entry gives. -/
theorem requireText_of_label {chapter : Chapter} {name : String} {x : Label}
    (named : requireText chapter fields "name" = .ok name) (labelled : label fields name = .ok given) (same : x = given) :
    requireText chapter fields "name" = .ok x.name := by
  rw [named, same, name_of_label labelled]

theorem requireText_host {x : Host} (read : host fields = .ok x) :
    requireText .hosts fields "name" = .ok x.name := by
  obtain ⟨name, named, read⟩ := bind_eq_ok_iff.mp read
  obtain ⟨_, _, read⟩ := bind_eq_ok_iff.mp read
  obtain ⟨label, labelled, read⟩ := bind_eq_ok_iff.mp read
  exact requireText_of_label named labelled (Host.toLabel_of_build (built_eq_ok read))

theorem requireText_network {x : Network} (read : network fields = .ok x) :
    requireText .networks fields "name" = .ok x.name := by
  obtain ⟨name, named, read⟩ := bind_eq_ok_iff.mp read
  obtain ⟨_, _, read⟩ := bind_eq_ok_iff.mp read
  obtain ⟨label, labelled, read⟩ := bind_eq_ok_iff.mp read
  apply requireText_of_label named labelled
  split at read
  · exact Network.toLabel_of_ofCidr (built_eq_ok read)
  · obtain ⟨_, _, read⟩ := bind_eq_ok_iff.mp read
    exact Network.toLabel_of_build (built_eq_ok read)

theorem requireText_range {x : Range} (read : range fields = .ok x) :
    requireText .ranges fields "name" = .ok x.name := by
  obtain ⟨name, named, read⟩ := bind_eq_ok_iff.mp read
  obtain ⟨label, labelled, read⟩ := bind_eq_ok_iff.mp read
  dsimp only at read
  apply requireText_of_label named labelled
  split at read
  · obtain ⟨_, _, read⟩ := bind_eq_ok_iff.mp read
    exact Range.toLabel_of_ofText (built_eq_ok read)
  · obtain ⟨_, _, read⟩ := bind_eq_ok_iff.mp read
    obtain ⟨_, _, read⟩ := bind_eq_ok_iff.mp read
    exact Range.toLabel_of_build (built_eq_ok read)

theorem requireText_port {x : Port} (read : port fields = .ok x) :
    requireText .ports fields "name" = .ok x.name := by
  obtain ⟨name, named, read⟩ := bind_eq_ok_iff.mp read
  obtain ⟨_, _, read⟩ := bind_eq_ok_iff.mp read
  obtain ⟨_, _, read⟩ := bind_eq_ok_iff.mp read
  obtain ⟨label, labelled, read⟩ := bind_eq_ok_iff.mp read
  exact requireText_of_label named labelled (Port.toLabel_of_build (built_eq_ok read))

theorem requireText_portRange {x : PortRange} (read : portRange fields = .ok x) :
    requireText .portRanges fields "name" = .ok x.name := by
  obtain ⟨name, named, read⟩ := bind_eq_ok_iff.mp read
  obtain ⟨_, _, read⟩ := bind_eq_ok_iff.mp read
  obtain ⟨_, _, read⟩ := bind_eq_ok_iff.mp read
  obtain ⟨_, _, read⟩ := bind_eq_ok_iff.mp read
  obtain ⟨label, labelled, read⟩ := bind_eq_ok_iff.mp read
  exact requireText_of_label named labelled (PortRange.toLabel_of_build (built_eq_ok read))

theorem requireText_leafSection {chapter : Chapter} {leafSection : LeafSection chapter}
    (given : chapter.leafSection? = some leafSection) {x : chapter.Content} (read : leafSection.read fields = .ok x) :
    requireText chapter fields "name" = .ok (leafSection.name x) := by
  cases chapter with
  | hosts =>
    cases given
    exact requireText_host read
  | networks =>
    cases given
    exact requireText_network read
  | ranges =>
    cases given
    exact requireText_range read
  | ports =>
    cases given
    exact requireText_port read
  | portRanges =>
    cases given
    exact requireText_portRange read
  | groups | portGroups | rules => cases given

end Policy

end Rulebase
