import Rulebase.Policy.Leaves
import Rulebase.Policy.Rules
import Rulebase.Proofs.Policy.Run
import Rulebase.Proofs.Text.Legible
import Rulebase.Proofs.Text.Writable

/-!
# What reading a section fails with

Whatever the entries of a section are, reading it fails with a defect of that very section, or because a
numeral is longer than the limit. The other failures need a document that is not legible: a numeral that passed
for one and is none takes a character that numerals do not have, in a field that is read as a numeral, and what
cannot be written takes an integer beyond the limit.
-/

namespace Rulebase

open Text

/-- Why building fails, if what is given is legible: a wrong part that can be written, or a numeral beyond the
limit, for which there is a text long enough. -/
inductive BuildError.Of (legible : Prop) (long : Nat → Prop) : BuildError → Prop where
  | invalid {cause : Invalid} (writable : legible → cause.isWritable = true) : Of legible long (.invalid cause)
  | numeral {cause : NumeralError} (limit : legible → cause.IsLimit long) : Of legible long (.numeral cause)

section Building

variable {α : Type} {legible : Prop} {long : Nat → Prop}

theorem fails_refuse {cause : Invalid} (writable : legible → cause.isWritable = true) :
    FailsWith (BuildError.Of legible long) (refuse cause : Built α) :=
  .error (.invalid writable)

theorem isWritable_of_buildNumeral {s : String} {n : Nat} (built : buildNumeral s = .ok n) : isWritable n = true := by
  unfold buildNumeral at built
  cases read : readNumeral s with
  | ok m =>
    simp only [read, Except.ok.injEq] at built
    exact built ▸ isWritable_of_read read
  | error e => simp [read] at built

/-- A row of digits is a number or is beyond the limit, unless it is illegible. -/
theorem fails_buildNumeral {s : String} (reach : ∀ n ≤ s.toList.length, long n)
    (read : legible → Legible s.toList ∧ isDigits (trim s.toList) = true) :
    FailsWith (BuildError.Of legible long) (buildNumeral s) := by
  intro e failed
  unfold buildNumeral at failed
  cases found : readNumeral s with
  | ok n => simp [found] at failed
  | error cause =>
    simp only [found, Except.error.injEq] at failed
    subst failed
    refine .numeral fun holds => ?_
    rcases readNumeral_of_legible (read holds).1 (read holds).2 with ⟨n, same⟩ | ⟨n, same, beyond, within⟩
    · simp [found] at same
    · simp only [found, Except.error.injEq] at same
      subst same
      exact ⟨beyond, reach n within⟩

theorem fails_buildAddress (s : String) : FailsWith (BuildError.Of legible long) (Address.build (.text s)) := by
  simp only [Address.build]
  split
  · exact .ok _
  · exact fails_refuse fun _ => by simp [Invalid.isWritable, Value.isWritable]

theorem fails_buildProtocol (given : Value) : FailsWith (BuildError.Of legible long) (Protocol.build given) := by
  unfold Protocol.build
  split
  · split
    · exact .ok _
    · exact fails_refuse fun _ => rfl
  · exact fails_refuse fun _ => rfl

theorem fails_buildNetmask {s : String} (reach : ∀ n ≤ s.toList.length, long n)
    (read : legible → isDigits s.toList = true → Legible s.toList) :
    FailsWith (BuildError.Of legible long) (Address.buildNetmask (.text s)) := by
  simp only [Address.buildNetmask]
  split
  next digits =>
    have numeral : FailsWith (BuildError.Of legible long) (buildNumeral s) := fails_buildNumeral reach fun holds => by
      have clear : Legible s.toList := read holds digits
      rw [clear.trim_eq_self digits]
      exact ⟨clear, digits⟩
    refine numeral.bind fun n built => ?_
    split
    · exact .ok _
    · refine fails_refuse fun _ => ?_
      simpa [Invalid.isWritable, Value.isWritable] using isWritable_of_buildNumeral built
  next => exact fails_refuse fun _ => by simp [Invalid.isWritable, Value.isWritable]

theorem fails_buildMask {s : String} (reach : ∀ n ≤ s.toList.length, long n)
    (read : legible → isDigits s.toList = true → Legible s.toList) :
    FailsWith (BuildError.Of legible long) (Address.buildMask (.text s)) := by
  have contiguous (mask : Address) : FailsWith (BuildError.Of legible long)
      (if h : mask.isNetmask = true then .ok ⟨mask, h⟩ else refuse (.scatteredMask mask) :
        Built { mask : Address // mask.isNetmask = true }) := by
    split
    · exact .ok _
    · exact fails_refuse fun _ => rfl
  simp only [Address.buildMask]
  split
  · exact (fails_buildNetmask reach read).bind fun mask _ => contiguous mask
  · split
    · exact contiguous _
    · exact fails_refuse fun _ => by simp [Invalid.isWritable, Value.isWritable]

theorem fails_buildPortNumber {given : Value} (writable : legible → given.isWritable = true)
    (reach : ∀ n ≤ given.plain.toList.length, long n)
    (read : legible → ∀ s, given = .text s → Legible s.toList) :
    FailsWith (BuildError.Of legible long) (buildPortNumber given) := by
  have bounded {i : Int} (writable : legible → isWritable i = true) : FailsWith (BuildError.Of legible long)
      (if h : 0 ≤ i ∧ i ≤ greatestPort then .ok ⟨i.toNat, by omega⟩ else refuse (.portOutOfRange i) :
        Built { number : Nat // number ≤ greatestPort }) := by
    split
    · exact .ok _
    · exact fails_refuse writable
  unfold buildPortNumber
  split
  next i => exact bounded fun holds => by simpa [Value.isWritable] using writable holds
  next s =>
    split
    next digits =>
      refine (fails_buildNumeral reach fun holds => ⟨read holds s rfl, digits⟩).bind fun n built => ?_
      exact bounded fun _ => isWritable_of_buildNumeral built
    next => exact fails_refuse writable
  · exact fails_refuse writable

theorem fails_networkOfMask (label : Label) (address : Address)
    (mask : { mask : Address // mask.isNetmask = true }) :
    FailsWith (BuildError.Of legible long) (Network.ofMask label address mask) := by
  unfold Network.ofMask
  split
  · exact .ok _
  · exact fails_refuse fun _ => rfl

theorem fails_networkOfCidr (label : Label) {cidr : String} (reach : ∀ n ≤ cidr.toList.length, long n)
    (read : legible → ∀ cs, cs <:+ trim cidr.toList → isDigits cs = true → Legible cs) :
    FailsWith (BuildError.Of legible long) (Network.ofCidr label cidr) := by
  unfold Network.ofCidr
  dsimp only
  split
  · exact fails_refuse fun _ => rfl
  next slash length behind =>
    have part : length <:+ trim cidr.toList :=
      (List.suffix_cons slash length).trans (behind ▸ List.dropWhile_suffix _)
    refine FailsWith.bind (fails_buildNetmask (fun n within => reach n ?_) fun holds digits => ?_) fun mask _ => ?_
    · rw [String.toList_ofList] at within
      exact Nat.le_trans within (part.sublist.trans (trim_sublist cidr.toList)).length_le
    · rw [String.toList_ofList] at digits ⊢
      exact read holds length part digits
    · refine (fails_buildAddress _).bind fun address _ => ?_
      split
      · exact fails_networkOfMask label address _
      · exact fails_refuse fun _ => rfl

theorem fails_buildRange (label : Label) (first last : String) :
    FailsWith (BuildError.Of legible long) (Range.build label (.text first) (.text last)) := by
  refine (fails_buildAddress first).bind fun first _ => (fails_buildAddress last).bind fun last _ => ?_
  split
  · exact .ok _
  · exact fails_refuse fun _ => rfl

theorem fails_rangeOfText (label : Label) (text : String) :
    FailsWith (BuildError.Of legible long) (Range.ofText label text) := by
  unfold Range.ofText
  split
  · exact fails_buildRange label _ _
  · exact fails_refuse fun _ => rfl

end Building

namespace Policy

/-- Why a section is not extracted, if the document is legible: a defect of the section, or a numeral beyond the
limit, for which there is a text long enough. -/
inductive LoadError.Of (chapter : Chapter) (legible : Prop) (long : Nat → Prop) : LoadError → Prop where
  | defect (cause : Defect) : Of chapter legible long (.defect chapter cause)
  | numeral {cause : NumeralError} (limit : legible → cause.IsLimit long) : Of chapter legible long (.numeral cause)

theorem LoadError.Of.mono {chapter : Chapter} {legible also : Prop} {long longer : Nat → Prop} {e : LoadError}
    (known : LoadError.Of chapter legible long e) (holds : also → legible) (reach : also → ∀ n, long n → longer n) :
    LoadError.Of chapter also longer e := by
  cases known with
  | defect cause => exact .defect cause
  | @numeral cause limit =>
    refine .numeral fun given => ?_
    cases cause with
    | tooLong digits => exact (limit (holds given)).imp_right (reach given digits)
    | malformed base text => exact limit (holds given)
    | tooLarge => exact limit (holds given)

/-- Every integer among the fields can be written. -/
def Writable (fields : Fields) : Prop :=
  (Value.mapping fields).isWritable = true

namespace Writable

variable {fields : Fields}

theorem getD (writable : Writable fields) (key : String) {other : Value} (also : other.isWritable = true) :
    ((Value.get? fields key).getD other).isWritable = true := by
  cases found : Value.get? fields key with
  | none => exact also
  | some v => exact Value.isWritable_of_get? writable found

theorem field (writable : Writable fields) (key : String) : (field fields key).isWritable = true :=
  writable.getD key (by rw [Value.isWritable])

theorem labelOf (writable : Writable fields) : (labelOf fields).isWritable = true :=
  writable.getD "name" (writable.getD "number" (by rw [Value.isWritable]))

end Writable

section Fields

variable {α : Type} {chapter : Chapter} {legible : Prop} {long : Nat → Prop} {fields document : Fields}

theorem fails_blame {cause : Defect} (writable : legible → cause.isWritable = true) :
    FailsWith (LoadError.Of chapter legible long) (blame chapter cause : Extracted α) := by
  unfold blame
  split
  · exact .error (.defect cause)
  next unwritable => exact .error (.numeral fun holds => unwritable (writable holds))

theorem fails_written {v : Value} (writable : legible → v.isWritable = true) :
    FailsWith (LoadError.Of chapter legible long) (written v) := by
  unfold written
  split
  · exact .ok _
  next unwritable => exact .error (.numeral fun holds => unwritable (writable holds))

theorem fails_require (writable : legible → Writable fields) (key : String) :
    FailsWith (LoadError.Of chapter legible long) (require chapter fields key) := by
  unfold require
  split
  · exact fails_blame fun holds => (writable holds).labelOf
  · exact fails_blame fun holds => (writable holds).labelOf
  · exact .ok _

theorem blame_ne_ok (cause : Defect) (a : α) : blame chapter cause ≠ .ok a := by
  unfold blame
  split <;> simp

theorem written_eq_ok {v : Value} {s : String} (found : written v = .ok s) : s = textOf v := by
  unfold written at found
  split at found
  · exact (Except.ok.inj found).symm
  · cases found

theorem textOf_eq_plain {v : Value} (present : v ≠ .null) : textOf v = v.plain := by
  unfold textOf
  split
  · contradiction
  · rfl

/-- A field that must be there is the field, and is neither absent nor null. -/
theorem require_eq_ok {key : String} {v : Value} (found : require chapter fields key = .ok v) :
    v = field fields key ∧ v ≠ .null := by
  unfold require at found
  split at found
  · exact absurd found (blame_ne_ok _ v)
  · exact absurd found (blame_ne_ok _ v)
  next other _ =>
    cases found
    exact ⟨rfl, other⟩

theorem requireText_eq_ok {key s : String} (found : requireText chapter fields key = .ok s) :
    s = (field fields key).plain := by
  unfold requireText at found
  cases needed : require chapter fields key with
  | error e => simp [needed, bind, Except.bind] at found
  | ok v =>
    obtain ⟨same, present⟩ := require_eq_ok needed
    have shown : s = textOf v := written_eq_ok (by simpa [needed, bind, Except.bind] using found)
    subst same
    rw [shown, textOf_eq_plain present]

theorem fails_requireText (writable : legible → Writable fields) (key : String) :
    FailsWith (LoadError.Of chapter legible long) (requireText chapter fields key) :=
  (fails_require writable key).bind fun v needed => fails_written fun holds => by
    rw [(require_eq_ok needed).1]
    exact (writable holds).field key

theorem fails_label (writable : legible → Writable fields) (name : String) :
    FailsWith (LoadError.Of chapter legible long) (label fields name) :=
  (fails_written fun holds => (writable holds).field "comment").bind fun _ _ => .ok _

theorem fails_protocolOf (writable : legible → Writable fields) :
    FailsWith (LoadError.Of chapter legible long) (protocolOf fields) := by
  refine (fails_written fun holds => ?_).bind fun _ _ => .ok _
  exact (writable holds).getD "protocol" (by rw [Value.isWritable])

theorem fails_built (kind : StoreKind) (name : String) {x : Built α}
    (fails : FailsWith (BuildError.Of legible long) x) :
    FailsWith (LoadError.Of chapter legible long) (built chapter kind name x) := by
  cases x with
  | ok a => exact .ok a
  | error e =>
    cases fails e rfl with
    | invalid writable => exact fails_blame writable
    | numeral limit => exact .error (.numeral limit)

theorem fieldsOf_eq_ok {v : Value} (found : fieldsOf chapter v = .ok fields) : v = .mapping fields := by
  unfold fieldsOf at found
  split at found
  · rw [Except.ok.inj found]
  · exact absurd found (blame_ne_ok _ fields)

theorem fails_entries (writable : legible → Writable document) :
    FailsWith (LoadError.Of chapter legible long) (entries document chapter) := by
  unfold entries
  dsimp only
  split
  · exact .ok []
  · split
    next items same =>
      refine FailsWith.mapM fun v listed => ?_
      unfold fieldsOf
      split
      · exact .ok _
      · refine fails_blame fun holds => ?_
        have list := same ▸ (writable holds).field chapter.key
        exact Value.isWritable_list.mp list v listed
    · exact fails_blame fun _ => rfl

theorem Writable.entries (writable : Writable document) {found : List Fields}
    (read : entries document chapter = .ok found) : ∀ fields ∈ found, Writable fields := by
  intro fields listed
  unfold Policy.entries at read
  dsimp only at read
  split at read
  · cases read
    cases listed
  · split at read
    next items same =>
      obtain ⟨v, among, taken⟩ := exists_of_mem_mapM read listed
      have list := same ▸ writable.field chapter.key
      have this := Value.isWritable_list.mp list v among
      rwa [fieldsOf_eq_ok taken] at this
    · exact absurd read (blame_ne_ok _ found)

theorem fails_memberNames (key : String) :
    FailsWith (LoadError.Of chapter legible long) (memberNames chapter fields key) := by
  unfold memberNames
  dsimp only
  split
  · exact .ok []
  · split
    · exact .ok _
    · exact .ok _
    · exact fails_blame fun _ => rfl

theorem Writable.memberNames (writable : Writable fields) {key : String} {names : List Value}
    (listed : memberNames chapter fields key = .ok names) : ∀ v ∈ names, v.isWritable = true := by
  have value := writable.field key
  unfold Policy.memberNames at listed
  dsimp only at listed
  split at listed
  · cases listed
    simp
  · split at listed
    · cases listed
      simpa using value
    next items same =>
      cases listed
      rw [same] at value
      exact Value.isWritable_list.mp value
    · exact absurd listed (blame_ne_ok _ names)

theorem fails_ruleNumber (writable : legible → Writable fields) :
    FailsWith (LoadError.Of .rules legible long) (ruleNumber fields) := by
  refine (fails_require writable "number").bind fun v needed => ?_
  obtain ⟨rfl, _⟩ := require_eq_ok needed
  split
  · exact .ok _
  · exact fails_blame fun holds => (writable holds).field "number"

theorem Writable.ruleNumber (writable : Writable fields) {number : Int} (found : ruleNumber fields = .ok number) :
    Text.isWritable number = true := by
  unfold Policy.ruleNumber at found
  cases needed : require .rules fields "number" with
  | error e => simp [needed, bind, Except.bind] at found
  | ok v =>
    obtain ⟨same, _⟩ := require_eq_ok needed
    have value := same ▸ writable.field "number"
    simp only [needed, bind, Except.bind] at found
    split at found
    · cases found
      simpa [Value.isWritable] using value
    · exact absurd found (blame_ne_ok _ number)

theorem fails_ruleAction (writable : legible → Writable fields) {number : Int}
    (numeral : legible → Text.isWritable number = true) :
    FailsWith (LoadError.Of .rules legible long) (ruleAction fields number) := by
  have action (holds : legible) : ((Value.get? fields "action").getD (.text "allow")).isWritable = true :=
    (writable holds).getD "action" (by rw [Value.isWritable])
  unfold ruleAction
  split
  · exact .ok _
  · refine (fails_written action).bind fun word _ => ?_
    split
    · exact .ok _
    · refine (fails_blame fun holds => ?_).bind fun allowed _ => .ok allowed
      simp [Defect.isWritable, numeral holds, action holds]

end Fields

/-- The fields of a section's entries in which numerals are read. -/
def Chapter.numeralKeys : Chapter → List String
  | networks => ["address", "mask"]
  | ports => ["port"]
  | portRanges => ["start", "end"]
  | hosts | ranges | groups | portGroups | rules => []

/-- The integers of an entry can be written, and the texts that it has for numerals hold no character that only
passes for a digit or blank. -/
structure EntryLegible (chapter : Chapter) (fields : Fields) : Prop where
  writable : Writable fields
  numerals : ∀ key ∈ chapter.numeralKeys, ∀ s, field fields key = .text s → Text.Legible s.toList

/-- Some text that an entry has for a numeral has so many characters or more. -/
def EntryLong (chapter : Chapter) (fields : Fields) (n : Nat) : Prop :=
  ∃ key ∈ chapter.numeralKeys, n ≤ (field fields key).plain.toList.length

def Long (document : Fields) (n : Nat) : Prop :=
  ∃ chapter found, entries document chapter = .ok found ∧ ∃ fields ∈ found, EntryLong chapter fields n

/-- The integers of a document can be written, and the texts that it has for numerals hold no character that only
passes for a digit or blank. -/
structure Legible (document : Fields) : Prop where
  writable : Writable document
  numerals : ∀ chapter found, entries document chapter = .ok found → ∀ fields ∈ found,
    ∀ key ∈ chapter.numeralKeys, ∀ s, field fields key = .text s → Text.Legible s.toList

abbrev LoadError.OfEntry (chapter : Chapter) (fields : Fields) : LoadError → Prop :=
  LoadError.Of chapter (EntryLegible chapter fields) (EntryLong chapter fields)

abbrev LoadError.OfSection (chapter : Chapter) (document : Fields) : LoadError → Prop :=
  LoadError.Of chapter (Legible document) (Long document)

section Leaves

theorem fails_host (fields : Fields) : FailsWith (LoadError.OfEntry .hosts fields) (host fields) := by
  refine (fails_requireText (·.writable) "name").bind fun name _ => ?_
  refine (fails_requireText (·.writable) "address").bind fun address _ => ?_
  refine (fails_label (·.writable) name).bind fun label _ => fails_built .host name ?_
  exact (fails_buildAddress _).bind fun _ _ => .ok _

theorem fails_network (fields : Fields) : FailsWith (LoadError.OfEntry .networks fields) (network fields) := by
  refine (fails_requireText (·.writable) "name").bind fun name _ => ?_
  refine (fails_requireText (·.writable) "address").bind fun address given => ?_
  refine (fails_label (·.writable) name).bind fun label _ => ?_
  split
  · have plain := requireText_eq_ok given
    refine fails_built .network name (fails_networkOfCidr label (fun n within => ?_) fun holds cs part digits => ?_)
    · exact ⟨"address", by decide, plain ▸ within⟩
    rw [plain] at part
    exact Value.legible_of_suffix (holds.numerals "address" (by decide)) (Or.inr rfl) part digits
  next present =>
    refine (fails_written fun holds => holds.writable.field "mask").bind fun length shown => ?_
    have plain : length = (field fields "mask").plain := by
      rw [written_eq_ok shown, textOf_eq_plain present]
    refine fails_built .network name ((fails_buildAddress _).bind fun address _ => ?_)
    refine FailsWith.bind (fails_buildMask (fun n within => ?_) fun holds digits => ?_) fun mask _ =>
      fails_networkOfMask label address mask
    · exact ⟨"mask", by decide, plain ▸ within⟩
    exact Value.legible_of_suffix (holds.numerals "mask" (by decide)) (Or.inl (by rw [plain])) List.suffix_rfl digits

theorem fails_range (fields : Fields) : FailsWith (LoadError.OfEntry .ranges fields) (range fields) := by
  refine (fails_requireText (·.writable) "name").bind fun name _ => ?_
  refine (fails_label (·.writable) name).bind fun label _ => ?_
  dsimp only
  split
  · refine (fails_written fun holds => holds.writable.field "range").bind fun text _ => ?_
    exact fails_built .range name (fails_rangeOfText label text)
  · refine (fails_requireText (·.writable) "start").bind fun first _ => ?_
    refine (fails_requireText (·.writable) "end").bind fun last _ => ?_
    exact fails_built .range name (fails_buildRange label _ _)

theorem fails_portField {chapter : Chapter} {fields : Fields} {key : String} {given : Value}
    (listed : key ∈ chapter.numeralKeys) (needed : require chapter fields key = .ok given) :
    FailsWith (BuildError.Of (EntryLegible chapter fields) (EntryLong chapter fields)) (buildPortNumber given) := by
  obtain ⟨rfl, _⟩ := require_eq_ok needed
  exact fails_buildPortNumber (fun holds => holds.writable.field key) (fun n within => ⟨key, listed, within⟩)
    fun holds => holds.numerals key listed

theorem fails_port (fields : Fields) : FailsWith (LoadError.OfEntry .ports fields) (port fields) := by
  refine (fails_requireText (·.writable) "name").bind fun name _ => ?_
  refine (fails_require (·.writable) "port").bind fun number given => ?_
  refine (fails_protocolOf (·.writable)).bind fun protocol _ => ?_
  refine (fails_label (·.writable) name).bind fun label _ => fails_built .port name ?_
  refine (fails_portField (by decide) given).bind fun number _ => ?_
  exact (fails_buildProtocol protocol).bind fun _ _ => .ok _

theorem fails_portRange (fields : Fields) : FailsWith (LoadError.OfEntry .portRanges fields) (portRange fields) := by
  refine (fails_requireText (·.writable) "name").bind fun name _ => ?_
  refine (fails_require (·.writable) "start").bind fun first start => ?_
  refine (fails_require (·.writable) "end").bind fun last stop => ?_
  refine (fails_protocolOf (·.writable)).bind fun protocol _ => ?_
  refine (fails_label (·.writable) name).bind fun label _ => fails_built .portRange name ?_
  refine (fails_portField (by decide) start).bind fun first _ => ?_
  refine (fails_portField (by decide) stop).bind fun last _ => ?_
  refine (fails_buildProtocol protocol).bind fun protocol _ => ?_
  split
  · exact .ok _
  · exact fails_refuse fun _ => rfl

theorem fails_leaves {α : Type} {document : Fields} {chapter : Chapter} {leaf : Fields → Extracted α}
    (each : ∀ fields, FailsWith (LoadError.OfEntry chapter fields) (leaf fields)) :
    FailsWith (LoadError.OfSection chapter document) (leaves document chapter leaf) := by
  refine (fails_entries (·.writable)).bind fun found read => FailsWith.mapM fun fields listed => ?_
  refine (each fields).imp fun e failed => failed.mono (fun holds => ?_) fun _ n long => ?_
  · exact ⟨holds.writable.entries read fields listed, holds.numerals chapter found read fields listed⟩
  · exact ⟨chapter, found, read, fields, listed, long⟩

end Leaves

end Policy

end Rulebase
