import Rulebase.Proofs.Address.Dotted
import Rulebase.Proofs.Address.Mask

/-!
# Objects are built from what is written of them

An address is written in dotted notation, a mask in the same notation or as its length, a number in decimal digits and a
protocol by its name. What is built from these parts, or from parts with a separator between them, is the object
that they were written of, under a label of its own.
-/

namespace Rulebase

open Text

namespace Text

/-- Characters that can stand between quotes and are not trimmed. -/
def Plain (cs : List Char) : Prop :=
  ∀ c ∈ cs, isBlank c = false ∧ c ≠ '"'

@[simp] theorem plain_append {cs ds : List Char} : Plain (cs ++ ds) ↔ Plain cs ∧ Plain ds :=
  List.forall_mem_append

@[simp] theorem plain_cons {c : Char} {cs : List Char} : Plain (c :: cs) ↔ (isBlank c = false ∧ c ≠ '"') ∧ Plain cs :=
  List.forall_mem_cons

@[simp] theorem plain_nil : Plain [] :=
  nofun

theorem Plain.trim_eq {cs : List Char} (plain : Plain cs) : trim cs = cs :=
  trim_eq_self fun c found => (plain c found).1

theorem Plain.quote_notMem {cs : List Char} (plain : Plain cs) : '"' ∉ cs :=
  fun found => (plain _ found).2 rfl

@[simp] theorem plain_digits (n : Nat) : Plain (digits n) := by
  intro c found
  have decimal := isDecimal_of_mem_digits found
  refine ⟨isBlank_of_isDecimal decimal, ?_⟩
  rintro rfl
  exact absurd decimal (by decide)

end Text

theorem buildNumeral_digits {n : Nat} (small : n < 10 ^ 5) : buildNumeral (String.ofList (digits n)) = .ok n := by
  have short : (digits n).length ≤ numeralLimit := Nat.le_trans (length_digits_le (by decide) small) (by decide)
  rw [buildNumeral, readNumeral_digits short]

namespace Address

variable {m : Address} {length : Nat}

theorem build_text (a : Address) : build (.text a.text) = .ok a := by
  simp only [build, parse?_text]

theorem isDigits_text (a : Address) : isDigits a.text.toList = false := by
  have dot : '.' ∈ a.text.toList := by
    rw [text, String.toList_ofList]
    exact dot_mem_chars a
  simp only [isDigits, Bool.and_eq_false_iff, List.all_eq_false]
  exact Or.inr ⟨'.', dot, by decide⟩

theorem buildNetmask_int_eq_ok_iff {p : Int} :
    buildNetmask (.int p) = .ok m ↔ (0 ≤ p ∧ p ≤ 32) ∧ m = netmask p.toNat := by
  by_cases within : 0 ≤ p ∧ p ≤ 32
  · simp only [buildNetmask, if_pos within, Except.ok.injEq, eq_comm (a := m)]
    exact (and_iff_right within).symm
  · simp only [buildNetmask, if_neg within]
    exact iff_of_false nofun fun built => within built.1

/-- The netmasks are what is built from lengths, each from its own. -/
theorem buildNetmask_int_eq_ok_iff_maskLength {p : Int} :
    buildNetmask (.int p) = .ok m ↔ m.isNetmask = true ∧ p = m.maskLength := by
  rw [buildNetmask_int_eq_ok_iff]
  constructor
  · rintro ⟨within, rfl⟩
    rw [maskLength_netmask (by omega), Int.toNat_of_nonneg within.1]
    exact ⟨isNetmask_netmask p.toNat, rfl⟩
  · rintro ⟨contiguous, rfl⟩
    have short := maskLength_le contiguous
    rw [Int.toNat_natCast, netmask_maskLength contiguous]
    exact ⟨by omega, rfl⟩

theorem buildNetmask_digits (short : length ≤ 32) :
    buildNetmask (.text (String.ofList (digits length))) = .ok (netmask length) := by
  have within : 0 ≤ (length : Int) ∧ (length : Int) ≤ 32 := by omega
  have read : buildNumeral (String.ofList (digits length)) = .ok length := buildNumeral_digits (by omega)
  simp only [buildNetmask, String.toList_ofList, isDigits_digits, if_true, read]
  exact if_pos within

theorem buildMask_text (contiguous : m.isNetmask = true) : buildMask (.text m.text) = .ok ⟨m, contiguous⟩ := by
  simp only [buildMask, isDigits_text, parse?_text]
  exact dif_pos contiguous

theorem buildMask_int (contiguous : m.isNetmask = true) : buildMask (.int m.maskLength) = .ok ⟨m, contiguous⟩ := by
  have built : buildNetmask (.int m.maskLength) = .ok m :=
    buildNetmask_int_eq_ok_iff_maskLength.mpr ⟨contiguous, rfl⟩
  simp only [buildMask, built]
  exact dif_pos contiguous

end Address

/-- A network is built from whatever denotes its address and its mask. -/
theorem Network.build_eq_ofMask {address mask : Value} {a : Address} {m : { mask : Address // mask.isNetmask = true }}
    (label : Label) (named : Address.build address = .ok a) (masked : Address.buildMask mask = .ok m) :
    Network.build label address mask = Network.ofMask label a m := by
  rw [Network.build, named, masked]
  rfl

theorem Network.ofMask_eq_ok_iff {label : Label} {a : Address} {m : { mask : Address // mask.isNetmask = true }} :
    (∃ n, Network.ofMask label a m = .ok n) ↔ a.base m.1 = a := by
  unfold Network.ofMask
  split
  next isBase => exact iff_of_true ⟨_, rfl⟩ isBase
  next other => exact iff_of_false nofun other

@[simp] theorem Address.plain_chars (a : Address) : Plain a.chars :=
  fun _ found => ⟨isBlank_of_mem_chars found, fun same => notMem_chars rfl (by decide) a (same ▸ found)⟩

@[simp] theorem Protocol.plain_name (p : Protocol) : Plain p.name.toList := by
  cases p <;> simp [name] <;> decide

namespace Leaf

def written : Leaf → String
  | host x => x.address.text
  | network x => x.cidr
  | range x => x.first.text ++ "-" ++ x.last.text
  | port x => x.protocol.name ++ "/" ++ numeral x.number
  | portRange x => x.protocol.name ++ "/" ++ numeral x.first ++ "-" ++ numeral x.last

def chars : Leaf → List Char
  | host x => x.address.chars
  | network x => x.address.chars ++ '/' :: digits x.length
  | range x => x.first.chars ++ '-' :: x.last.chars
  | port x => x.protocol.name.toList ++ '/' :: digits x.number
  | portRange x => x.protocol.name.toList ++ '/' :: (digits x.first ++ '-' :: digits x.last)

theorem toList_written (x : Leaf) : x.written.toList = x.chars := by
  cases x <;> simp [written, chars, Network.cidr, Address.text, numeral]

theorem ofList_chars (x : Leaf) : String.ofList x.chars = x.written := by
  rw [← x.toList_written, String.ofList_toList]

theorem chars_ne_nil (x : Leaf) : x.chars ≠ [] := by
  cases x <;> simp [chars, Address.chars_ne_nil]

theorem plain_chars (x : Leaf) : Plain x.chars := by
  cases x <;> simp [chars] <;> decide

end Leaf

/-- A network is built from its base address and the length of its mask. -/
theorem Network.ofCidr_cidr (label : Label) (n : Network) : ofCidr label n.cidr = .ok { n with toLabel := label } := by
  have written : n.cidr.toList = n.address.chars ++ '/' :: digits n.length := (Leaf.network n).toList_written
  have solid : trim n.cidr.toList = n.address.chars ++ '/' :: digits n.length := by
    rw [written]
    exact (Leaf.network n).plain_chars.trim_eq
  have free : '/' ∉ n.address.chars := Address.notMem_chars rfl (by decide) _
  have length : Address.buildNetmask (.text (String.ofList (digits n.length))) = .ok n.mask := by
    rw [Network.length, Address.buildNetmask_digits (Address.maskLength_le n.isNetmask),
      Address.netmask_maskLength n.isNetmask]
  rw [ofCidr, solid, takeWhile_append_cons free, dropWhile_append_cons free]
  have address : Address.build (.text (String.ofList n.address.chars)) = .ok n.address := n.address.build_text
  simp only [length, address]
  exact (dif_pos n.isNetmask).trans (dif_pos n.isBase)

theorem Range.build_ends (label : Label) (x : Range) :
    Range.build label (.text x.first.text) (.text x.last.text) = .ok { x with toLabel := label } := by
  rw [Range.build, Address.build_text, Address.build_text]
  exact dif_pos x.ordered

theorem Range.ofText_ends (label : Label) (x : Range) :
    Range.ofText label (x.first.text ++ "-" ++ x.last.text) = .ok { x with toLabel := label } := by
  have written : (x.first.text ++ "-" ++ x.last.text).toList = (Leaf.range x).chars := (Leaf.range x).toList_written
  have free (a : Address) : '-' ∉ a.chars := Address.notMem_chars rfl (by decide) a
  have parts : split '-' (x.first.chars ++ '-' :: x.last.chars) = [x.first.chars, x.last.chars] := by
    rw [split_append_cons (free x.first), split_of_notMem (free x.last)]
  rw [ofText, written, (Leaf.range x).plain_chars.trim_eq, Leaf.chars, parts]
  exact Range.build_ends label x

theorem buildPortNumber_digits {n : Nat} (bounded : n ≤ greatestPort) :
    buildPortNumber (.text (String.ofList (digits n))) = .ok ⟨n, bounded⟩ := by
  have within : 0 ≤ (n : Int) ∧ (n : Int) ≤ greatestPort := by omega
  have read : buildNumeral (String.ofList (digits n)) = .ok n :=
    buildNumeral_digits (Nat.lt_of_le_of_lt bounded (by decide))
  simp only [buildPortNumber, String.toList_ofList, (plain_digits n).trim_eq, isDigits_digits, if_true, read]
  exact dif_pos within

theorem Protocol.build_name (p : Protocol) : Protocol.build (.text p.name) = .ok p := by
  have known : Protocol.parse? p.name = some p := by
    cases p <;> rfl
  simp only [Protocol.build, known]

theorem Port.build_parts (label : Label) (x : Port) :
    Port.build label (.text (String.ofList (digits x.number))) (.text x.protocol.name) =
      .ok { x with toLabel := label } := by
  rw [Port.build, buildPortNumber_digits x.bounded, Protocol.build_name]
  rfl

theorem PortRange.build_parts (label : Label) (x : PortRange) :
    PortRange.build label (.text (String.ofList (digits x.first))) (.text (String.ofList (digits x.last)))
      (.text x.protocol.name) = .ok { x with toLabel := label } := by
  rw [PortRange.build, buildPortNumber_digits (Nat.le_trans x.ordered x.bounded), buildPortNumber_digits x.bounded,
    Protocol.build_name]
  exact dif_pos x.ordered

end Rulebase
