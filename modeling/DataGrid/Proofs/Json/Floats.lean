import DataGrid.Proofs.Json.Numerals
import DataGrid.Proofs.Number.Shortest

/-!
# Floats — the text of a floating-point number is a number

The shortest digits of a finite number are written with a point among them, with zeros filled in,
or with an exponent. Each of these forms is a proper numeral, and since the digits spell no more
than the greatest number, the numeral stands for a number (`Numeral.exists_text`). That need not be
the number that was written, since reading rounds twice.
-/

namespace DataGrid

namespace Numeral

open Binary64 (tenTo greatest)

variable {n : Nat} {ds : List Nat}

/-! ## Digits without the zeros behind them -/

theorem spell_zeros (zeros : Nat) : spell (List.replicate zeros 0) = 0 := by
  induction zeros with
  | zero => rfl
  | succ zeros ih => rw [List.replicate_succ, Numeral.spell, List.foldl_cons]; exact ih

theorem spell_lt (hds : ∀ d ∈ ds, d < 10) : spell ds < tenTo ds.length := by
  induction ds with
  | nil => decide
  | cons d ds ih =>
    have hd := hds d List.mem_cons_self
    have hrest := ih fun a ha => hds a (List.mem_cons_of_mem d ha)
    have hspell := spell_append [d] ds
    have hone : spell [d] = d := by simp [Numeral.spell]
    have hten : tenTo (ds.length + 1) = tenTo ds.length * 10 := Nat.pow_succ ..
    rw [hone, ← Binary64.tenTo_eq] at hspell
    rw [← List.singleton_append, hspell, List.singleton_append, List.length_cons, hten]
    nlinarith

/-- Digits are those in front and the zeros behind them. -/
theorem exists_zeros (hds : ∀ d ∈ ds, d < 10) : ∃ front zeros,
    ds = front ++ List.replicate zeros 0
    ∧ ((ds.map Nat.digitChar).reverse.dropWhile (· == '0')).reverse
      = front.map Nat.digitChar := by
  induction ds using List.reverseRecOn with
  | nil => exact ⟨[], 0, rfl, rfl⟩
  | append_singleton init d ih =>
    have hd := hds d (by simp)
    have hzero : ∀ d : Fin 10, (Nat.digitChar d.val == '0') = (d.val == 0) := by decide
    rw [List.map_append, List.map_singleton, List.reverse_append, List.reverse_singleton,
      List.singleton_append, List.dropWhile_cons, hzero ⟨d, hd⟩]
    by_cases h : d = 0
    · obtain ⟨front, zeros, heq, hstrip⟩ := ih fun a ha => hds a (by simp [ha])
      refine ⟨front, zeros + 1, ?_, ?_⟩
      · rw [heq, h, List.replicate_succ', List.append_assoc]
      · rw [if_pos (by simpa using h)]
        exact hstrip
    · refine ⟨init ++ [d], 0, by simp, ?_⟩
      rw [if_neg (by simpa using h)]
      simp

/-- Whether digits are those of a number that is not zero, with nothing behind them. -/
structure Leads (ds : List Nat) : Prop where
  digits : Digits ds
  leading : ds.head? ≠ some 0

/-- The digits of a number other than zero begin with no zero, also without the zeros behind. -/
theorem exists_leads (hpos : 1 ≤ n) : ∃ front zeros, Leads front
    ∧ (toString n).toList.length = front.length + zeros ∧ spell front * tenTo zeros = n
    ∧ (((toString n).toList.reverse.dropWhile (· == '0')).reverse = front.map Nat.digitChar) := by
  obtain ⟨ds, hds, hdec⟩ := exists_decimal n
  obtain ⟨front, zeros, rfl, hstrip⟩ := exists_zeros hdec.digits.2
  have hspell : spell front * tenTo zeros = n := by
    have hn := hdec.spell
    rw [spell_append, spell_zeros, List.length_replicate, Nat.add_zero] at hn
    exact hn
  have hnonempty : front ≠ [] := by
    rintro rfl
    rw [Numeral.spell, List.foldl_nil, Nat.zero_mul] at hspell
    omega
  refine ⟨front, zeros, ⟨⟨hnonempty, ?_⟩, fun hzero => ?_⟩, ?_, hspell, by rw [hds, hstrip]⟩
  · exact fun d hd => hdec.digits.2 d (List.mem_append_left _ hd)
  · -- A zero in front would be the only digit.
    obtain ⟨d, tail, rfl⟩ := List.exists_cons_of_ne_nil hnonempty
    have hall := hdec.leading hzero
    have hn := hdec.spell
    rw [hall] at hn
    rw [← hn] at hpos
    exact absurd hpos (by decide)
  · rw [hds, List.length_map, List.length_append, List.length_replicate]

/-! ## A point among the digits -/

/-- The digits before and behind the point, zeros filled in on either side. -/
def pointed (ds : List Nat) (whole : Int) : List Nat × List Nat :=
  if whole ≤ 0 then ([0], List.replicate (-whole).toNat 0 ++ ds)
  else if ds.length ≤ whole.toNat then (ds ++ List.replicate (whole.toNat - ds.length) 0, [0])
  else (ds.take whole.toNat, ds.drop whole.toNat)

theorem placePoint_eq (ds : List Nat) (whole : Int) :
    Binary64.placePoint (ds.map Nat.digitChar) whole
      = (pointed ds whole).1.map Nat.digitChar
        ++ '.' :: (pointed ds whole).2.map Nat.digitChar := by
  have hzero : Nat.digitChar 0 = '0' := by decide
  rw [Binary64.placePoint, pointed]
  by_cases hwhole : whole ≤ 0
  · simp [hwhole, hzero]
  · by_cases hlength : ds.length ≤ whole.toNat
    · simp [hwhole, hlength, hzero]
    · simp [hwhole, hlength, List.map_take, List.map_drop]

/-- Digits with a point among them are a proper numeral of eighteen digits at most. -/
theorem pointed_proper (hds : Leads ds) (hfew : spell ds ≤ tenTo 18) {whole : Int}
    (hwhole : whole ≤ 16) (negative : Bool) :
    Proper ⟨negative, (pointed ds whole).1, some (pointed ds whole).2, none⟩
      ∧ spell ((pointed ds whole).1 ++ (pointed ds whole).2) ≤ tenTo 18 := by
  have hzeros : ∀ zeros, ∀ d ∈ List.replicate zeros 0, d < 10 := fun zeros d hd => by
    rw [List.eq_of_mem_replicate hd]
    decide
  have hsmall := hds.digits.2
  obtain ⟨first, tail, rfl⟩ := List.exists_cons_of_ne_nil hds.digits.1
  have hfirst : first ≠ 0 := fun h => hds.leading (by rw [List.head?_cons, h])
  rw [pointed]
  split
  · refine ⟨⟨⟨by simp, by simp⟩, fun _ => rfl, ?_⟩, ?_⟩
    · rintro _ ⟨⟩
      exact ⟨by simp, fun d hd => (List.mem_append.1 hd).elim (hzeros _ d) (hsmall d)⟩
    · have hone : spell [0] = 0 := rfl
      rw [spell_append, spell_append, spell_zeros, hone, Nat.zero_mul, Nat.zero_mul, Nat.zero_add,
        Nat.zero_add]
      exact hfew
  · next hpos =>
    split
    · next hlength =>
      have hdigits : ∀ d ∈ first :: tail ++ List.replicate (whole.toNat - (first :: tail).length) 0,
          d < 10 := fun d hd => (List.mem_append.1 hd).elim (hsmall d) (hzeros _ d)
      refine ⟨⟨⟨by simp, hdigits⟩, fun h => absurd (Option.some.inj h) hfirst, ?_⟩, ?_⟩
      · rintro _ ⟨⟩
        exact ⟨by simp, by simp⟩
      · -- There are seventeen digits at most, the zero behind the point included.
        refine (spell_lt fun d hd => (List.mem_append.1 hd).elim (hdigits d) (hzeros 1 d)).le.trans
          (Binary64.tenTo_le ?_)
        simp only [List.length_append, List.length_replicate] at hlength ⊢
        omega
    · next hlength =>
      obtain ⟨count, hcount⟩ : ∃ count, whole.toNat = count + 1 := ⟨whole.toNat - 1, by omega⟩
      refine ⟨⟨⟨by simp [hcount], fun d hd => hsmall d (List.mem_of_mem_take hd)⟩, ?_, ?_⟩, ?_⟩
      · rw [hcount, List.take_succ_cons]
        exact fun h => absurd (Option.some.inj h) hfirst
      · rintro _ ⟨⟩
        exact ⟨by rw [ne_eq, List.drop_eq_nil_iff]; exact hlength,
          fun d hd => hsmall d (List.mem_of_mem_drop hd)⟩
      · rw [List.take_append_drop]
        exact hfew

/-! ## An exponent behind the digits -/

theorem exponentOctets_eq (top : Int) :
    ((if top < 0 then ['e', '-'] else ['e', '+']) ++ Binary64.digitsOf top.natAbs).flatMap
      String.utf8EncodeChar = exponentOctets (some top) := by
  have hmarks : ['e', '-'].flatMap String.utf8EncodeChar = [0x65, 0x2D]
      ∧ ['e', '+'].flatMap String.utf8EncodeChar = [0x65, 0x2B] := by decide
  rw [List.flatMap_append, Binary64.digitsOf, ← toBytes_eq_flatMap, exponentOctets]
  split
  · rw [hmarks.1]
    rfl
  · rw [hmarks.2]
    rfl

/-- Digits with an exponent are a proper numeral of the same digits. -/
theorem scaled_proper (hds : Leads ds) (negative : Bool) (top : Int) :
    ∃ whole fraction, Proper ⟨negative, whole, fraction, some top⟩
      ∧ whole ++ fraction.getD [] = ds
      ∧ top - (fraction.getD []).length = top + 1 - ds.length
      ∧ whole.map octet ++ (fractionOctets fraction ++ exponentOctets (some top))
        = (Binary64.withExponent (ds.map Nat.digitChar) top).flatMap String.utf8EncodeChar := by
  obtain ⟨first, tail, rfl⟩ := List.exists_cons_of_ne_nil hds.digits.1
  have hsmall := hds.digits.2
  have hfirst : Digits [first] := ⟨by simp, by simpa using hsmall first List.mem_cons_self⟩
  have hleading : [first].head? = some 0 → [first] = [0] := fun h => absurd h hds.leading
  cases tail with
  | nil =>
    refine ⟨[first], none, ⟨hfirst, hleading, nofun⟩, rfl, by simp, ?_⟩
    have hdigits := flatMap_digitChar hfirst.2
    rw [← exponentOctets_eq, ← hdigits, fractionOctets, List.nil_append, ← List.flatMap_append]
    rfl
  | cons second rest =>
    have hrest : Digits (second :: rest) :=
      ⟨by simp, fun d hd => hsmall d (List.mem_cons_of_mem first hd)⟩
    refine ⟨[first], some (second :: rest), ⟨hfirst, hleading, ?_⟩, rfl, ?_, ?_⟩
    · rintro _ ⟨⟩
      exact hrest
    · simp only [Option.getD_some, List.length_cons]
      omega
    · have hpoint : String.utf8EncodeChar '.' = [0x2E] := by decide
      have hform : Binary64.withExponent ((first :: second :: rest).map Nat.digitChar) top
          = [first].map Nat.digitChar ++ '.' :: ((second :: rest).map Nat.digitChar
            ++ ((if top < 0 then ['e', '-'] else ['e', '+']) ++ Binary64.digitsOf top.natAbs)) := by
        simp [Binary64.withExponent]
      rw [hform, List.flatMap_append, List.flatMap_cons, List.flatMap_append, exponentOctets_eq,
        flatMap_digitChar hfirst.2, flatMap_digitChar hrest.2, hpoint]
      rfl

/-! ## The text of a number -/

theorem ascii_text (negative : Bool) (chars : List Char) :
    Json.ascii (String.ofList ((if negative then ['-'] else []) ++ chars))
      = (if negative then [0x2D] else []) ++ chars.flatMap String.utf8EncodeChar := by
  have hminus : ['-'].flatMap String.utf8EncodeChar = [0x2D] := by decide
  rw [Json.ascii, toBytes_eq_flatMap, String.toList_ofList, List.flatMap_append]
  cases negative with
  | true =>
    rw [if_pos rfl, if_pos rfl, hminus]
  | false => rfl

/-- Digits of a finite number, with a point or with an exponent, are a numeral that stands for a
number. -/
theorem exists_placed (hds : Leads ds) (hfew : spell ds ≤ tenTo 18) (negative : Bool) {top : Int}
    (hlimit : ∀ p : Nat, top + 1 - ds.length = p → spell ds * tenTo p ≤ greatest) :
    ∃ numeral : Numeral, numeral.Proper ∧ (∃ number, numeral.value? = some number)
      ∧ numeral.octets = (if negative then [0x2D] else [])
        ++ (if -5 ≤ top ∧ top < 16 then Binary64.placePoint (ds.map Nat.digitChar) (top + 1)
          else Binary64.withExponent (ds.map Nat.digitChar) top).flatMap String.utf8EncodeChar := by
  by_cases htop : -5 ≤ top ∧ top < 16
  · rw [if_pos htop]
    obtain ⟨hproper, hspell⟩ := pointed_proper hds hfew (show top + 1 ≤ 16 by omega) negative
    have hwhole := hproper.whole
    have hfraction := hproper.fraction _ rfl
    refine ⟨_, hproper, exists_value? (.inl (Option.some_ne_none _)) hspell fun p hp => ?_, ?_⟩
    · -- There are digits behind the point, so the power of ten is negative.
      have hpos := List.length_pos_of_ne_nil hfraction.1
      simp only [Option.getD_none, Option.getD_some] at hp
      omega
    · have hpoint : String.utf8EncodeChar '.' = [0x2E] := by decide
      rw [placePoint_eq, List.flatMap_append, List.flatMap_cons, flatMap_digitChar hwhole.2,
        flatMap_digitChar hfraction.2, hpoint, octets, exponentOctets, List.append_nil]
      rfl
  · rw [if_neg htop]
    obtain ⟨whole, fraction, hproper, hdigits, hpower, hoctets⟩ := scaled_proper hds negative top
    refine ⟨_, hproper, exists_value? (.inr (Option.some_ne_none _)) ?_ fun p hp => ?_, ?_⟩
    · rw [hdigits]
      exact hfew
    · rw [hdigits]
      exact hlimit p (hpower ▸ hp)
    · rw [octets, hoctets]

/-- **The text of a finite number is a proper numeral, which stands for a number.** -/
theorem exists_text {x : Binary64} (h : x.isFinite = true) :
    ∃ numeral : Numeral, numeral.Proper ∧ (∃ number, numeral.value? = some number)
      ∧ Json.ascii x.text = numeral.octets := by
  by_cases hzero : x.magnitude = 0
  · have htext : x.text
        = String.ofList ((if x.isNegative then ['-'] else []) ++ ['0', '.', '0']) := by
      rw [Binary64.text, if_pos hzero]
    have hdigits : Digits [0] := ⟨by simp, by simp⟩
    refine ⟨⟨x.isNegative, [0], some [0], none⟩, ⟨hdigits, fun _ => rfl, ?_⟩, ?_, ?_⟩
    · rintro _ ⟨⟩
      exact hdigits
    · have hspell : spell [0, 0] ≤ tenTo 18 := by decide
      refine exists_value? (.inl (Option.some_ne_none _)) hspell fun p hp => ?_
      simp only [Option.getD_none, Option.getD_some, List.length_singleton] at hp
      omega
    · rw [htext, ascii_text]
      rfl
  · obtain ⟨hpos, hfew, hlimit⟩ := Binary64.shortest_spec h hzero
    obtain ⟨front, zeros, hleads, hlength, hspell, hstrip⟩ := exists_leads hpos
    have hle : spell front ≤ x.shortest.digits := by
      rw [← hspell]
      exact Nat.le_mul_of_pos_right _ (Binary64.tenTo_pos zeros)
    have hscaled : ∀ p : Nat,
        x.shortest.exponent + (toString x.shortest.digits).toList.length - 1 + 1 - front.length
          = p → spell front * tenTo p ≤ greatest := fun p hp => by
      -- The zeros that are left out are in the power of ten.
      have hexponent : (p : Int) = zeros + x.shortest.exponent := by omega
      have hvalue : ((spell front * tenTo p : Nat) : ℚ)
          = x.shortest.digits * 10 ^ x.shortest.exponent := by
        rw [← hspell, Nat.cast_mul, Nat.cast_mul, Binary64.cast_tenTo, Binary64.cast_tenTo,
          ← zpow_natCast, hexponent, zpow_add₀ (by norm_num), zpow_natCast]
        ring
      rw [← hvalue] at hlimit
      exact_mod_cast hlimit
    obtain ⟨numeral, hproper, hvalue, hoctets⟩ :=
      exists_placed hleads (hle.trans hfew) x.isNegative hscaled
    refine ⟨numeral, hproper, hvalue, ?_⟩
    rw [hoctets, ← ascii_text, Binary64.text, if_neg hzero]
    simp only [Binary64.digitsOf, hstrip]

end Numeral

end DataGrid
