import DataGrid.Json.Reader
import DataGrid.Json.Writer
import DataGrid.Proofs.Number.Rounding

/-!
# Numerals — the text of a number is read to its end

A value is followed by a comma, by the end of the list or object that it stands in, or by nothing
(`Json.Closes`), and that is all that its reader may look at behind it. A reader spells a value by
octets if it takes exactly these octets for the value in that place (`Json.Spells`). Every proper
numeral is spelled by its octets (`Numeral.spells_octets`). It stands for a number if it is whole,
or if its digits are few and its power of ten is not beyond the greatest number
(`Numeral.exists_value?`).
-/

namespace DataGrid

namespace Json

/-- Whether octets go on behind a value as they do in a text: with a comma, with the end of the
list or object, or not at all. -/
inductive Closes : Bytes → Prop where
  | nil : Closes []
  | comma (rest : Bytes) : Closes (0x2C :: rest)
  | brace (rest : Bytes) : Closes (0x7D :: rest)
  | bracket (rest : Bytes) : Closes (0x5D :: rest)

/-- Whether a reader takes octets for a value in its place. -/
def Spells {α : Type} (read : Bytes → Option (α × Bytes)) (bytes : Bytes) (a : α) : Prop :=
  ∀ rest, Closes rest → read (bytes ++ rest) = some (a, rest)

end Json

namespace Numeral

open Binary64 (tenTo greatest)

/-! ## Digits -/

/-- The octet of a digit. -/
def octet (d : Nat) : UInt8 := UInt8.ofNat (0x30 + d)

/-- Whether numbers are decimal digits. -/
def Digits (ds : List Nat) : Prop := ds ≠ [] ∧ ∀ d ∈ ds, d < 10

/-- Whether digits are the decimal digits of a number. -/
structure Decimal (n : Nat) (ds : List Nat) : Prop where
  digits : Digits ds
  spell : spell ds = n
  /-- A zero in front stands alone. -/
  leading : ds.head? = some 0 → ds = [0]

variable {n : Nat} {ds : List Nat} {rest : Bytes}

theorem toBytes_eq_flatMap (s : String) :
    Text.toBytes s = s.toList.flatMap String.utf8EncodeChar := by
  rw [Text.toBytes, ← String.utf8Encode_toList, List.utf8Encode]
  simp

theorem foldl_spell (start : Nat) (ds : List Nat) :
    ds.foldl (fun n d => n * 10 + d) start = start * 10 ^ ds.length + spell ds := by
  induction ds generalizing start with
  | nil => simp [Numeral.spell]
  | cons d ds ih =>
    have hspell : spell (d :: ds) = (0 * 10 + d) * 10 ^ ds.length + spell ds := by
      rw [Numeral.spell, List.foldl_cons, ih]
    rw [List.foldl_cons, ih, hspell, List.length_cons, Nat.pow_succ]
    ring

theorem spell_append (front back : List Nat) :
    spell (front ++ back) = spell front * 10 ^ back.length + spell back := by
  rw [Numeral.spell, List.foldl_append, foldl_spell]
  rfl

/-- **The text of a number is its decimal digits.** -/
theorem exists_decimal (n : Nat) :
    ∃ ds, (toString n).toList = ds.map Nat.digitChar ∧ Decimal n ds := by
  rw [Nat.toString_eq_repr, Nat.toList_repr]
  induction n using Nat.strongRecOn with
  | ind n ih =>
    by_cases hn : n < 10
    · refine ⟨[n], by rw [Nat.toDigits_of_lt_base hn]; rfl, ⟨⟨List.cons_ne_nil _ _, ?_⟩, ?_, ?_⟩⟩
      · simpa using hn
      · simp [Numeral.spell]
      · exact fun h => by rw [Option.some.inj h]
    · obtain ⟨ds, hds, hdec⟩ := ih (n / 10) (by omega)
      refine ⟨ds ++ [n % 10], ?_, ⟨⟨by simp, fun d hd => ?_⟩, ?_, fun h => ?_⟩⟩
      · rw [Nat.toDigits_of_base_le (by decide) (by omega), hds, List.map_append]
        rfl
      · rcases List.mem_append.1 hd with hd | hd
        · exact hdec.digits.2 d hd
        · rw [List.mem_singleton.1 hd]
          omega
      · rw [spell_append, hdec.spell]
        simp [Numeral.spell]
        omega
      · -- The digits in front spell a number that is not zero.
        have hfront : ds.head? = some 0 := by
          obtain ⟨d, tail, rfl⟩ := List.exists_cons_of_ne_nil hdec.digits.1
          exact h
        have hzero := hdec.spell
        rw [hdec.leading hfront] at hzero
        have hfew : n / 10 = 0 := hzero.symm
        omega

/-- Digits in a text take an octet each. -/
theorem flatMap_digitChar (hds : ∀ d ∈ ds, d < 10) :
    (ds.map Nat.digitChar).flatMap String.utf8EncodeChar = ds.map octet := by
  have hall : ∀ d : Fin 10, String.utf8EncodeChar (Nat.digitChar d.val) = [octet d.val] := by decide
  rw [List.flatMap_map]
  induction ds with
  | nil => rfl
  | cons d ds ih =>
    rw [List.flatMap_cons, hall ⟨d, hds d List.mem_cons_self⟩,
      ih fun a ha => hds a (List.mem_cons_of_mem d ha)]
    rfl

/-- **The octets of a number are those of its decimal digits.** -/
theorem exists_octets (n : Nat) :
    ∃ ds, Text.toBytes (toString n) = ds.map octet ∧ Decimal n ds := by
  obtain ⟨ds, hds, hdec⟩ := exists_decimal n
  exact ⟨ds, by rw [toBytes_eq_flatMap, hds, flatMap_digitChar hdec.digits.2], hdec⟩

/-! ## Reading the digits -/

theorem digit?_octet {d : Nat} (h : d < 10) : digit? (octet d) = some d := by
  have hall : ∀ d : Fin 10, digit? (octet d.val) = some d.val := by decide
  exact hall ⟨d, h⟩

/-- Whether octets do not begin with a digit. -/
def Ends (rest : Bytes) : Prop := ∀ done, digitsOnto done rest = (done.reverse, rest)

theorem ends_cons {byte : UInt8} (h : digit? byte = none) (rest : Bytes) :
    Ends (byte :: rest) := fun done => by
  rw [digitsOnto, h]

theorem ends_of_closes (h : Json.Closes rest) : Ends rest := by
  cases h with
  | nil => exact fun done => rfl
  | comma | brace | bracket => exact ends_cons (by decide) _

theorem digitsOnto_octets (hsmall : ∀ d ∈ ds, d < 10) (h : Ends rest) (done : List Nat) :
    digitsOnto done (ds.map octet ++ rest) = (done.reverse ++ ds, rest) := by
  induction ds generalizing done with
  | nil => rw [List.map_nil, List.nil_append, h, List.append_nil]
  | cons d ds ih =>
    rw [List.map_cons, List.cons_append, digitsOnto, digit?_octet (hsmall d List.mem_cons_self)]
    dsimp only
    rw [ih (fun a ha => hsmall a (List.mem_cons_of_mem d ha)), List.reverse_cons,
      List.append_assoc, List.singleton_append]

theorem digits?_octets (hds : Digits ds) (h : Ends rest) :
    digits? (ds.map octet ++ rest) = some (ds, rest) := by
  rw [digits?, digitsOnto_octets hds.2 h, List.reverse_nil, List.nil_append]
  obtain ⟨d, tail, rfl⟩ := List.exists_cons_of_ne_nil hds.1
  rfl

theorem whole?_octets (hds : Digits ds) (hleading : ds.head? = some 0 → ds = [0])
    (h : Ends rest) : whole? (ds.map octet ++ rest) = some (ds, rest) := by
  rw [whole?, digits?_octets hds h]
  split
  · next heq =>
    obtain ⟨rfl, -⟩ := Prod.mk.inj (Option.some.inj heq)
    have hzero := hleading rfl
    cases hzero
  · rfl

/-! ## Reading a numeral -/

/-- Whether a numeral is one that can be written. -/
structure Proper (numeral : Numeral) : Prop where
  whole : Digits numeral.whole
  leading : numeral.whole.head? = some 0 → numeral.whole = [0]
  fraction : ∀ ds, numeral.fraction = some ds → Digits ds

/-- The octets of a fraction. -/
def fractionOctets : Option (List Nat) → Bytes
  | some ds => 0x2E :: ds.map octet
  | none => []

/-- The octets of an exponent, whose sign is always written. -/
def exponentOctets : Option Int → Bytes
  | some e => 0x65 :: (if e < 0 then 0x2D else 0x2B) :: Text.toBytes (toString e.natAbs)
  | none => []

/-- The octets of a numeral. -/
def octets (numeral : Numeral) : Bytes :=
  (if numeral.negative then [0x2D] else []) ++ (numeral.whole.map octet
    ++ (fractionOctets numeral.fraction ++ exponentOctets numeral.exponent))

theorem exponent?_octets (exponent : Option Int) (h : Json.Closes rest) :
    exponent? (exponentOctets exponent ++ rest) = some (exponent, rest) := by
  cases exponent with
  | none => cases h <;> rfl
  | some e =>
    obtain ⟨ds, hds, hdec⟩ := exists_octets e.natAbs
    rw [exponentOctets, hds, List.cons_append, List.cons_append, exponent?, if_pos (.inl rfl)]
    by_cases he : e < 0
    · have hvalue : -((e.natAbs : Nat) : Int) = e := by omega
      rw [if_pos he]
      simp only [exponentSign, digits?_octets hdec.digits (ends_of_closes h), Option.map_some,
        if_true, hdec.spell, hvalue]
    · have hvalue : ((e.natAbs : Nat) : Int) = e := by omega
      rw [if_neg he]
      simp only [exponentSign, digits?_octets hdec.digits (ends_of_closes h), Option.map_some,
        Bool.false_eq_true, if_false, hdec.spell, hvalue]

theorem ends_exponent (exponent : Option Int) (h : Json.Closes rest) :
    Ends (exponentOctets exponent ++ rest) := by
  cases exponent with
  | none => exact ends_of_closes h
  | some e => exact ends_cons (by decide) _

theorem fraction?_octets {fraction : Option (List Nat)}
    (hfraction : ∀ ds, fraction = some ds → Digits ds) (exponent : Option Int)
    (h : Json.Closes rest) :
    fraction? (fractionOctets fraction ++ (exponentOctets exponent ++ rest))
      = some (fraction, exponentOctets exponent ++ rest) := by
  cases fraction with
  | none =>
    cases exponent with
    | none => cases h <;> rfl
    | some e => rfl
  | some ds =>
    rw [fractionOctets, List.cons_append, fraction?,
      digits?_octets (hfraction ds rfl) (ends_exponent exponent h)]
    rfl

theorem ends_fraction (fraction : Option (List Nat)) (exponent : Option Int)
    (h : Json.Closes rest) :
    Ends (fractionOctets fraction ++ (exponentOctets exponent ++ rest)) := by
  cases fraction with
  | none => exact ends_exponent exponent h
  | some ds => exact ends_cons (by decide) _

/-- What stands behind the sign of a numeral is read part by part. -/
theorem read_unsigned {numeral : Numeral} (h : numeral.Proper) {rest : Bytes}
    (hrest : Json.Closes rest) (sign : Bool) : (do
      let (whole, bytes) ← whole? (numeral.whole.map octet
        ++ (fractionOctets numeral.fraction ++ (exponentOctets numeral.exponent ++ rest)))
      let (fraction, bytes) ← fraction? bytes
      let (exponent, bytes) ← exponent? bytes
      return (({ negative := sign, whole, fraction, exponent } : Numeral), bytes))
      = some ({ numeral with negative := sign }, rest) := by
  rw [whole?_octets h.whole h.leading (ends_fraction numeral.fraction numeral.exponent hrest)]
  simp only [Option.bind_eq_bind, Option.bind_some,
    fraction?_octets h.fraction numeral.exponent hrest, exponent?_octets numeral.exponent hrest]
  rfl

/-- **A proper numeral is read back from its octets.** -/
theorem spells_octets {numeral : Numeral} (h : numeral.Proper) :
    Json.Spells read? numeral.octets numeral := by
  intro rest hrest
  have hunsigned := read_unsigned h hrest
  obtain ⟨negative, whole, fraction, exponent⟩ := numeral
  rw [octets, List.append_assoc, List.append_assoc, List.append_assoc]
  dsimp only
  cases negative with
  | true =>
    rw [if_pos rfl, List.singleton_append, read?]
    exact hunsigned true
  | false =>
    rw [if_neg Bool.false_ne_true, List.nil_append]
    obtain ⟨d, tail, rfl⟩ := List.exists_cons_of_ne_nil h.whole.1
    have hminus : octet d ≠ 0x2D := by
      have hall : ∀ d : Fin 10, octet d.val ≠ 0x2D := by decide
      exact hall ⟨d, h.whole.2 d List.mem_cons_self⟩
    rw [read?]
    · exact hunsigned false
    · exact fun bytes heq => hminus (List.cons.inj heq).1

/-- A numeral begins with a minus or with a digit. -/
theorem exists_first {numeral : Numeral} (h : numeral.Proper) : ∃ byte tail,
    numeral.octets = byte :: tail ∧ (byte = 0x2D ∨ ∃ d : Fin 10, byte = octet d.val) := by
  obtain ⟨negative, whole, fraction, exponent⟩ := numeral
  cases negative with
  | true => exact ⟨0x2D, _, rfl, .inl rfl⟩
  | false =>
    obtain ⟨d, tail, rfl⟩ := List.exists_cons_of_ne_nil h.whole.1
    exact ⟨octet d, _, rfl, .inr ⟨⟨d, h.whole.2 d List.mem_cons_self⟩, rfl⟩⟩

/-! ## The number of a numeral -/

/-- Digits are absorbed as long as their number fits sixty-four bits. -/
theorem absorb_of_lt (start : Nat) (h : start * 10 ^ ds.length + spell ds < UInt64.size) :
    absorb start ds = (start * 10 ^ ds.length + spell ds, []) := by
  rw [← foldl_spell] at h ⊢
  induction ds generalizing start with
  | nil => rfl
  | cons d ds ih =>
    have hmono := foldl_spell (start * 10 + d) ds
    have hpow : 1 ≤ 10 ^ ds.length := Nat.one_le_two_pow.trans (Nat.pow_le_pow_left (by decide) _)
    have hle : start * 10 + d ≤ (start * 10 + d) * 10 ^ ds.length := Nat.le_mul_of_pos_right _ hpow
    rw [List.foldl_cons] at h ⊢
    rw [absorb, if_pos (by omega)]
    exact ih _ h

theorem absorb_decimal (hds : Decimal n ds) (h : n < UInt64.size) : absorb 0 ds = (n, []) := by
  have hspell := hds.spell
  rw [absorb_of_lt 0 (by omega), Nat.zero_mul, Nat.zero_add, hspell]

/-- **The text of a natural number is a numeral that stands for it.** -/
theorem exists_natural (n : UInt64) : ∃ numeral : Numeral, numeral.Proper
    ∧ numeral.value? = some (.natural n) ∧ Json.writeNumber (.natural n) = numeral.octets := by
  obtain ⟨ds, hds, hdec⟩ := exists_octets n.toNat
  refine ⟨⟨false, ds, none, none⟩, ⟨hdec.digits, hdec.leading, nofun⟩, ?_, ?_⟩
  · rw [value?, absorb_decimal hdec n.toNat_lt]
    dsimp only
    rw [UInt64.ofNat_toNat]
    rfl
  · rw [Json.writeNumber, Json.ascii, hds]
    exact (List.append_nil _).symm

/-- **The text of a whole number below zero is a numeral that stands for it.** -/
theorem exists_negative {n : Int64} (h : n.toInt < 0) : ∃ numeral : Numeral, numeral.Proper
    ∧ numeral.value? = some (.negative n) ∧ Json.writeNumber (.negative n) = numeral.octets := by
  obtain ⟨m, hm⟩ := Int.eq_negSucc_of_lt_zero h
  obtain ⟨ds, hds, hdec⟩ := exists_octets (m + 1)
  have hweight : Binary64.signWeight = 9223372036854775808 := by decide
  have hsize : UInt64.size = 18446744073709551616 := rfl
  have hle : m + 1 ≤ Binary64.signWeight := by
    have hleast := n.le_toInt
    omega
  refine ⟨⟨true, ds, none, none⟩, ⟨hdec.digits, hdec.leading, nofun⟩, ?_, ?_⟩
  · have hint : (-((m + 1 : Nat) : Int)) = n.toInt := by omega
    rw [value?, absorb_decimal hdec (by omega)]
    dsimp only
    rw [if_neg (by decide), if_neg (by omega), hint, Int64.ofInt_toInt]
    rfl
  · have htext : toString n.toInt = "-" ++ toString (m + 1) := by
      rw [hm]
      rfl
    rw [Json.writeNumber, Json.ascii, htext, toBytes_eq_flatMap, String.toList_append,
      List.flatMap_append, ← toBytes_eq_flatMap, ← toBytes_eq_flatMap, hds, octets, fractionOctets,
      exponentOctets, List.append_nil, List.append_nil]
    rfl

/-! Digits and a power of ten stand for a number as long as the number is below infinity. Rounding
comes twice, at the digits and at the product; since it keeps order, it is enough to look at the
most digits for each power. -/

theorem exists_ofRatio_tenTo {power power' : Nat} (h : power ≤ power') {y : Binary64}
    (hy : Binary64.ofRatio (tenTo power') 1 = some y) :
    ∃ x, Binary64.ofRatio (tenTo power) 1 = some x ∧ x.magnitude ≤ y.magnitude :=
  Binary64.exists_ofRatio Nat.one_ne_zero Nat.one_ne_zero
    (Nat.mul_le_mul_right 1 (Binary64.tenTo_le h)) hy

theorem powerOfTen_le {power power' : Nat} (h : power ≤ power') (hpower' : power' ≤ 308) :
    (powerOfTen power).magnitude ≤ (powerOfTen power').magnitude := by
  have hlast : (Binary64.ofRatio (tenTo 308) 1).isSome := by decide +kernel
  obtain ⟨last, hlast⟩ := Option.isSome_iff_exists.1 hlast
  obtain ⟨y, hy, -⟩ := exists_ofRatio_tenTo hpower' hlast
  obtain ⟨x, hx, hle⟩ := exists_ofRatio_tenTo h hy
  rw [powerOfTen, powerOfTen, hx, hy]
  exact hle

theorem float?_of_le {power : Nat} (hn : n ≠ 0) (hpower : power ≤ 308) :
    float? n power = (Binary64.ofRatio n 1).bind (·.multiply (powerOfTen power)) := by
  rw [float?, if_neg hn]
  congr 1
  funext x
  rw [if_pos (Int.natCast_nonneg power), if_pos (by omega), Int.toNat_natCast]

/-- Fewer digits, and a lower power of ten, stand for a number too. -/
theorem float?_mono {n' power power' : Nat} (hn : n ≤ n') (hpower : power ≤ power')
    (hpower' : power' ≤ 308) (h : (float? n' power').isSome) : (float? n power).isSome := by
  by_cases hzero : n = 0
  · rw [float?, if_pos hzero]
    rfl
  · rw [float?_of_le (by omega) hpower', Option.isSome_bind, Option.any_eq_true] at h
    obtain ⟨y, hy, hproduct⟩ := h
    obtain ⟨product, hproduct⟩ := Option.isSome_iff_exists.1 hproduct
    obtain ⟨x, hx, hle⟩ := Binary64.exists_ofRatio Nat.one_ne_zero Nat.one_ne_zero
      (Nat.mul_le_mul_right 1 hn) hy
    obtain ⟨product', hproduct'⟩ :=
      Binary64.exists_multiply hle (powerOfTen_le hpower hpower') hproduct
    rw [float?_of_le hzero (by omega), hx, Option.bind_some, hproduct']
    rfl

theorem float?_greatest : ∀ power : Fin 18,
    (float? (greatest / tenTo (power.val + 291)) (power.val + 291 : Nat)).isSome := by
  decide +kernel

theorem float?_eighteen : (float? (tenTo 18) (290 : Nat)).isSome := by
  decide +kernel

/-- **Eighteen digits or fewer stand for a number up to the greatest.** -/
theorem isSome_float? {power : Int} (hn : n ≤ tenTo 18)
    (h : ∀ p : Nat, power = p → n * tenTo p ≤ greatest) : (float? n power).isSome := by
  by_cases hzero : n = 0
  · rw [float?, if_pos hzero]
    rfl
  by_cases hpower : 0 ≤ power
  · obtain ⟨p, rfl⟩ := Int.eq_ofNat_of_zero_le hpower
    have hle := h p rfl
    have hpos := Binary64.tenTo_pos p
    by_cases hlow : p ≤ 290
    · exact float?_mono hn hlow (by decide) float?_eighteen
    by_cases hhigh : p ≤ 308
    · have hgreatest := float?_greatest ⟨p - 291, by omega⟩
      have hp : p - 291 + 291 = p := by omega
      rw [hp] at hgreatest
      exact float?_mono ((Nat.le_div_iff_mul_le hpos).2 hle) (Nat.le_refl p) hhigh hgreatest
    · -- Even one is too large for a power beyond that.
      have hbeyond : greatest < tenTo 309 := by decide +kernel
      have hpow : tenTo 309 ≤ tenTo p := Binary64.tenTo_le (by omega)
      have hone : tenTo p ≤ n * tenTo p :=
        Nat.le_mul_of_pos_left _ (Nat.pos_of_ne_zero hzero)
      exact absurd hbeyond (Nat.not_lt.2 (hpow.trans (hone.trans hle)))
  · have heighteen : (Binary64.ofRatio (tenTo 18) 1).isSome := by decide +kernel
    obtain ⟨y, hy⟩ := Option.isSome_iff_exists.1 heighteen
    obtain ⟨x, hx, -⟩ := Binary64.exists_ofRatio Nat.one_ne_zero Nat.one_ne_zero
      (Nat.mul_le_mul_right 1 hn) hy
    rw [float?, if_neg hzero, hx]
    simp only [Option.bind_eq_bind, Option.bind_some, if_neg hpower]
    rfl

/-- **A numeral with a fraction or an exponent stands for a number** if its digits are few and its
power of ten is not beyond the greatest number. -/
theorem exists_value? {numeral : Numeral}
    (hform : numeral.fraction ≠ none ∨ numeral.exponent ≠ none)
    (hn : spell (numeral.whole ++ numeral.fraction.getD []) ≤ tenTo 18)
    (hpower : ∀ p : Nat, numeral.exponent.getD 0 - (numeral.fraction.getD []).length = p →
      spell (numeral.whole ++ numeral.fraction.getD []) * tenTo p ≤ greatest) :
    ∃ number, numeral.value? = some number := by
  obtain ⟨negative, whole, fraction, exponent⟩ := numeral
  dsimp only at hform hn hpower
  generalize hds : fraction.getD [] = ds at hn hpower
  have hsize : tenTo 18 < UInt64.size := by decide
  rw [spell_append] at hn hpower
  have hwhole : spell whole < UInt64.size := by
    have hpow : 1 ≤ 10 ^ ds.length := Nat.pow_pos (by decide)
    have hle : spell whole ≤ spell whole * 10 ^ ds.length := Nat.le_mul_of_pos_right _ hpow
    omega
  have habsorb : absorb 0 whole = (spell whole, []) := by
    rw [absorb_of_lt 0 (by omega), Nat.zero_mul, Nat.zero_add]
  have hfraction : absorb (spell whole) ds = (spell whole * 10 ^ ds.length + spell ds, []) :=
    absorb_of_lt _ (by omega)
  obtain ⟨x, hx⟩ := Option.isSome_iff_exists.1 (isSome_float? hn hpower)
  have hplaces : ((([] : List Nat).length : Int) - ((ds.length : Int) - ([] : List Nat).length)
      + exponent.getD 0) = exponent.getD 0 - ds.length := by
    simp only [List.length_nil]
    omega
  refine ⟨.float (if negative then x.negate else x), ?_⟩
  rw [value?, habsorb]
  split
  · next heq hfrac hexp => exact absurd hform (by simp_all)
  · next n left heq hnone =>
    obtain ⟨rfl, rfl⟩ := Prod.mk.inj heq
    simp only [hds, hfraction, hplaces, hx, Option.bind_eq_bind, Option.bind_some]
    rfl

end Numeral

end DataGrid
