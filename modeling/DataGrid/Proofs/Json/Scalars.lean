import DataGrid.Proofs.Json.Numerals
import DataGrid.Reply.Exception

/-!
# Scalars — the texts, numbers and uuids of a JSON text

Texts are spelled by their quotation, whole numbers by their digits, and uuids by their letters.
-/

namespace DataGrid

namespace Json

theorem skipBlanks_cons {byte : UInt8} (h : isBlank byte = false) (rest : Bytes) :
    skipBlanks (byte :: rest) = byte :: rest := by
  rw [skipBlanks, if_neg (by rw [h]; exact Bool.false_ne_true)]

theorem mark?_self {mark : UInt8} (h : isBlank mark = false) (rest : Bytes) :
    mark? mark (mark :: rest) = some rest := by
  rw [mark?, skipBlanks_cons h]
  exact if_pos rfl

theorem mark?_other {mark byte : UInt8} (h : isBlank byte = false) (hne : byte ≠ mark)
    (rest : Bytes) : mark? mark (byte :: rest) = none := by
  rw [mark?, skipBlanks_cons h]
  exact if_neg hne

/-! ## Texts -/

theorem stringOnto_end (done rest : Bytes) :
    stringOnto done (0x22 :: rest) = some (done.reverse, rest) := by
  rw [stringOnto.eq_def]
  exact if_pos rfl

theorem stringOnto_plain {byte : UInt8} (hquote : byte ≠ 0x22) (hslash : byte ≠ 0x5C)
    (hcontrol : ¬ byte < 0x20) (done rest : Bytes) :
    stringOnto done (byte :: rest) = stringOnto (byte :: done) rest := by
  rw [stringOnto.eq_def]
  dsimp only
  rw [if_neg hquote, if_neg hslash, if_neg hcontrol]

theorem stringOnto_letter {letter byte : UInt8} (hletter : letter ≠ 0x75)
    (hescaped : escaped? letter = some byte) (done rest : Bytes) :
    stringOnto done (0x5C :: letter :: rest) = stringOnto (byte :: done) rest := by
  rw [stringOnto.eq_def]
  dsimp only
  rw [if_neg (by decide), if_pos rfl, if_neg hletter, hescaped]

theorem stringOnto_unit {a b c d : UInt8} {n : Nat} (hunit : unit? a b c d = some n)
    (hsmall : n < 0xD800) (done rest : Bytes) :
    stringOnto done (0x5C :: 0x75 :: a :: b :: c :: d :: rest)
      = stringOnto ((encodePoint n).reverse ++ done) rest := by
  rw [stringOnto.eq_def]
  dsimp only
  rw [if_neg (by decide), if_pos rfl, if_pos rfl, hunit]
  exact if_pos (.inl hsmall)

/-- A control character is the code point of its own number, and its escape spells that number. -/
theorem unit?_control {byte : UInt8} (h : byte < 0x20) :
    unit? 0x30 0x30 (Hex.digit (byte.toNat / 16)) (Hex.digit (byte.toNat % 16))
        = some byte.toNat
      ∧ encodePoint byte.toNat = [byte] := by
  have hall : ∀ n : Fin 32, unit? 0x30 0x30 (Hex.digit (n.val / 16)) (Hex.digit (n.val % 16))
      = some n.val ∧ encodePoint n.val = [UInt8.ofNat n.val] := by decide
  have hlt : byte.toNat < 32 := UInt8.lt_iff_toNat_lt.1 h
  have hbyte := hall ⟨byte.toNat, hlt⟩
  rwa [UInt8.ofNat_toNat] at hbyte

/-- An octet is read back from the way that it stands between quotation marks. -/
theorem stringOnto_escape (done : Bytes) (byte : UInt8) (rest : Bytes) :
    stringOnto done (escape byte ++ rest) = stringOnto (byte :: done) rest := by
  unfold escape
  -- Seven octets have a letter each.
  iterate 7
    split
    · next h =>
      subst h
      exact stringOnto_letter (by decide) rfl done rest
  split
  · next h =>
    obtain ⟨hunit, hpoint⟩ := unit?_control h
    have hlt : byte.toNat < 32 := UInt8.lt_iff_toNat_lt.1 h
    have hread := stringOnto_unit hunit (by omega) done rest
    rw [hpoint] at hread
    exact hread
  · next hquote hslash _ _ _ _ _ hcontrol =>
    exact stringOnto_plain hquote hslash hcontrol done rest

theorem stringOnto_quoted (octets done rest : Bytes) :
    stringOnto done (octets.flatMap escape ++ 0x22 :: rest)
      = some (done.reverse ++ octets, rest) := by
  induction octets generalizing done with
  | nil =>
    rw [List.flatMap_nil, List.nil_append, stringOnto_end, List.append_nil]
  | cons byte octets ih =>
    rw [List.flatMap_cons, List.append_assoc, stringOnto_escape, ih, List.reverse_cons,
      List.append_assoc, List.singleton_append]

theorem stringBody?_quoted (s : String) (rest : Bytes) :
    stringBody? ((Text.toBytes s).flatMap escape ++ 0x22 :: rest) = some (s, rest) := by
  rw [stringBody?, stringOnto_quoted, List.reverse_nil, List.nil_append]
  simp only [Option.bind_eq_bind, Option.bind_some, Text.ofBytes_toBytes]
  rfl

theorem quote_append (s : String) (rest : Bytes) :
    quote s ++ rest = 0x22 :: ((Text.toBytes s).flatMap escape ++ 0x22 :: rest) := by
  rw [quote, List.cons_append, List.append_assoc, List.singleton_append]

/-- **A text is read back from its quotation.** -/
theorem string?_quote (s : String) (rest : Bytes) :
    string? (quote s ++ rest) = some (s, rest) := by
  rw [string?, quote_append, mark?_self (by decide)]
  exact stringBody?_quoted s rest

theorem spells_quote (s : String) : Spells string? (quote s) s := fun rest _ =>
  string?_quote s rest

/-! ## Whole numbers -/

theorem ofNat_eq_ofInt (n : Nat) : ofNat n = ofInt n := by
  rw [ofInt, if_pos (Int.natCast_nonneg n)]
  rfl

theorem skipBlanks_octets {numeral : Numeral} (h : numeral.Proper) (rest : Bytes) :
    skipBlanks (numeral.octets ++ rest) = numeral.octets ++ rest := by
  obtain ⟨byte, tail, heq, hbyte⟩ := Numeral.exists_first h
  have hblank : isBlank byte = false := by
    have hall : ∀ d : Fin 10, isBlank (Numeral.octet d.val) = false := by decide
    rcases hbyte with rfl | ⟨d, rfl⟩
    · decide
    · exact hall d
  rw [heq]
  exact skipBlanks_cons hblank _

/-- **A whole number is read back from its digits.** -/
theorem spells_int {low high n : Int} (hlow : low ≤ n) (hhigh : n ≤ high)
    (hleast : -9223372036854775808 ≤ n) (hgreatest : n ≤ 9223372036854775807) :
    Spells (int? low high) (write (ofInt n)) n := by
  obtain ⟨number, numeral, hproper, hvalue, hoctets, hint⟩ : ∃ number, ∃ numeral : Numeral,
      numeral.Proper ∧ numeral.value? = some number ∧ write (ofInt n) = numeral.octets
        ∧ (Json.number number).toInt? = some n := by
    by_cases hn : 0 ≤ n
    · obtain ⟨numeral, hproper, hvalue, hoctets⟩ :=
        Numeral.exists_natural (UInt64.ofNat n.toNat)
      refine ⟨_, numeral, hproper, hvalue, by rw [ofInt, if_pos hn, write, hoctets], ?_⟩
      rw [toInt?, UInt64.toNat_ofNat_of_lt' (by rw [UInt64.size]; omega), Int.toNat_of_nonneg hn]
    · have hint : (Int64.ofInt n).toInt = n := Int64.toInt_ofInt_of_le (by omega) (by omega)
      obtain ⟨numeral, hproper, hvalue, hoctets⟩ :=
        Numeral.exists_negative (n := Int64.ofInt n) (by omega)
      exact ⟨_, numeral, hproper, hvalue, by rw [ofInt, if_neg hn, write, hoctets],
        by rw [toInt?, hint]⟩
  intro rest hrest
  rw [hoctets, int?, skipBlanks_octets hproper, Numeral.spells_octets hproper rest hrest]
  simp only [Option.bind_eq_bind, Option.bind_some, hvalue, toIntBetween?, hint]
  rw [if_pos ⟨hlow, hhigh⟩]
  rfl

end Json

/-! ## Uuids -/

namespace Uuid

theorem letterValue?_letter {n : Nat} (h : n < 32) : letterValue? (letter n) = some n := by
  have hall : ∀ n : Fin 32, letterValue? (letter n.val) = some n.val := by decide
  exact hall ⟨n, h⟩

/-- The letters of a number stand for its digits, and those spell its low part. -/
theorem mapM_letters (n count : Nat) : ∃ values, (letters n count).mapM letterValue? = some values
    ∧ ∀ start, values.foldl (fun n v => n * 32 + v) start
      = start * 32 ^ count + n % 32 ^ count := by
  induction count with
  | zero => exact ⟨[], rfl, fun start => by simp [Nat.mod_one]⟩
  | succ count ih =>
    obtain ⟨values, hvalues, hspell⟩ := ih
    refine ⟨(n >>> (5 * count)) % 32 :: values, ?_, fun start => ?_⟩
    · have hlt : (n >>> (5 * count)) % 32 < 32 := Nat.mod_lt _ (by decide)
      rw [letters, List.mapM_cons, letterValue?_letter hlt, hvalues]
      rfl
    · have hshift : n >>> (5 * count) = n / 32 ^ count := by
        rw [Nat.shiftRight_eq_div_pow, Nat.pow_mul]
      have hsplit : n % 32 ^ (count + 1) = n % 32 ^ count + 32 ^ count * (n / 32 ^ count % 32) :=
        Nat.mod_pow_succ
      rw [List.foldl_cons, hspell, hshift, hsplit, Nat.pow_succ]
      ring

theorem length_letters (n count : Nat) : (letters n count).length = count := by
  induction count with
  | zero => rfl
  | succ count ih => rw [letters, List.length_cons, ih]

/-- **A uuid is read back from its letters.** -/
theorem ofText?_toText (uuid : Uuid) : ofText? uuid.toText = some uuid := by
  obtain ⟨values, hvalues, hspell⟩ := mapM_letters uuid.bits.toNat 26
  have hlt : uuid.bits.toNat < 32 ^ 26 := Nat.lt_trans uuid.bits.isLt (by decide)
  have hvalue := hspell 0
  rw [Nat.zero_mul, Nat.zero_add, Nat.mod_eq_of_lt hlt] at hvalue
  have hlength := length_letters uuid.bits.toNat 26
  rw [ofText?, toText, String.toList_ofList]
  simp only [hlength, ne_eq, not_true_eq_false, if_false, hvalues, Option.bind_eq_bind,
    Option.bind_some, hvalue, BitVec.ofNat_toNat, BitVec.setWidth_eq]
  rfl

end Uuid

namespace Json

theorem spells_uuid (uuid : Uuid) : Spells uuid? (write (.text uuid.toText)) uuid := by
  intro rest _
  rw [write, uuid?, string?_quote]
  simp only [Option.bind_eq_bind, Option.bind_some, Uuid.ofText?_toText]
  rfl

end Json

end DataGrid
