import SurrealPg.Config.Utf8

/-!
# Percent-decoding

What `percent_decode` makes of a value, compared with two descriptions that do not mention its
loop: an encoder that may write each byte of a text in any of the ways the format allows, and a
reference decoder that leaves a stray `%` alone and goes on with the byte after it.

The loop undoes every encoding. It differs from the reference where a `%` is stray: it copies up to
two bytes after it without looking at them, so an escape or a `+` among them is passed over. Then
what comes out is another text, however the bytes are read as UTF-8 afterwards: a copied escape has
more ASCII bytes than the one byte it stands for, and a copied `+` is not a space. A weight of the
ASCII bytes, in which a `+` counts twice, is larger on the side of the loop in either case.
-/

namespace SurrealPg

namespace Text

/-! ## Hexadecimal digits -/

/-- The bytes of an ASCII text. -/
def asciiBytes (s : String) : List UInt8 := s.toList.map fun c ↦ UInt8.ofNat c.toNat

/-- `d` is one of the two spellings of the digit `n`. -/
def IsHexDigit (n : ℕ) (d : UInt8) : Prop :=
  (asciiBytes "0123456789ABCDEF")[n]? = some d ∨ (asciiBytes "0123456789abcdef")[n]? = some d

instance instDecidableIsHexDigit (n : ℕ) (d : UInt8) : Decidable (IsHexDigit n d) :=
  inferInstanceAs (Decidable (_ ∨ _))

theorem hexDigit_of_isHexDigit {n : ℕ} {d : UInt8} (h : IsHexDigit n d) :
    hexDigit d = some (UInt8.ofNat n) := by
  have hall : ∀ s ∈ ["0123456789ABCDEF", "0123456789abcdef"], ∀ p ∈ (asciiBytes s).zipIdx,
      hexDigit p.1 = some (UInt8.ofNat p.2) := by
    decide +kernel
  rcases h with h | h
  · exact hall "0123456789ABCDEF" (by simp) (d, n) (List.mk_mem_zipIdx_iff_getElem?.mpr h)
  · exact hall "0123456789abcdef" (by simp) (d, n) (List.mk_mem_zipIdx_iff_getElem?.mpr h)

theorem hexDigit_range {d v : UInt8} (h : hexDigit d = some v) :
    48 ≤ d.toNat ∧ d.toNat ≤ 102 := by
  have hbyte := d.toNat_lt
  have hchar : (Char.ofNat d.toNat).toNat = d.toNat := toNat_ofNat_of_valid (by omega)
  have hle : ∀ c e : Char, c ≤ e ↔ c.toNat ≤ e.toNat := fun _ _ ↦ Iff.rfl
  rw [hexDigit] at h
  split_ifs at h with hdigit hlower hupper
  · have hrange := Char.isDigit_iff_toNat.mp hdigit
    rw [hchar] at hrange
    exact ⟨hrange.1, hrange.2.trans (by decide)⟩
  · rw [hle, hle, hchar] at hlower
    exact ⟨le_trans (by decide) hlower.1, hlower.2⟩
  · rw [hle, hle, hchar] at hupper
    exact ⟨le_trans (by decide) hupper.1, hupper.2.trans (by decide)⟩

/-! ## The loop -/

section

variable {b hi lo hv lv : UInt8} {rest : List UInt8}

theorem percentBytes_plus (rest : List UInt8) :
    percentBytes (43 :: rest) = 32 :: percentBytes rest := by
  rw [percentBytes.eq_def]
  exact if_pos rfl

theorem percentBytes_cons (hplus : b ≠ 43) (hpercent : b ≠ 37) :
    percentBytes (b :: rest) = b :: percentBytes rest := by
  rw [percentBytes.eq_def]
  exact (if_neg hplus).trans (if_neg hpercent)

theorem percentBytes_escape (hhi : hexDigit hi = some hv) (hlo : hexDigit lo = some lv) :
    percentBytes (37 :: hi :: lo :: rest) = (hv * 16 + lv) :: percentBytes rest := by
  rw [percentBytes, if_neg (by decide), if_pos rfl]
  simp only [hhi, hlo]

end

/-! ## Encodings -/

/-- `enc` writes each of the bytes as an escape with two hex digits, as itself unless it is `%` or
`+`, or, if it is a space, as `+`. -/
inductive Encodes : List UInt8 → List UInt8 → Prop
  | nil : Encodes [] []
  | escape {b hi lo : UInt8} {bytes enc : List UInt8} :
    IsHexDigit (b.toNat / 16) hi → IsHexDigit (b.toNat % 16) lo → Encodes bytes enc →
      Encodes (b :: bytes) (37 :: hi :: lo :: enc)
  | itself {b : UInt8} {bytes enc : List UInt8} :
    b ≠ 37 → b ≠ 43 → Encodes bytes enc → Encodes (b :: bytes) (b :: enc)
  | space {bytes enc : List UInt8} : Encodes bytes enc → Encodes (32 :: bytes) (43 :: enc)

theorem percentBytes_of_encodes {bytes enc : List UInt8} (h : Encodes bytes enc) :
    percentBytes enc = bytes := by
  induction h with
  | nil => rfl
  | @escape b hi lo bytes enc hhi hlo _ ih =>
    have hb : UInt8.ofNat (b.toNat / 16) * 16 + UInt8.ofNat (b.toNat % 16) = b := by
      have := b.toNat_lt
      rw [← UInt8.toNat_inj]
      simp
      omega
    rw [percentBytes_escape (hexDigit_of_isHexDigit hhi) (hexDigit_of_isHexDigit hlo), ih, hb]
  | itself hpercent hplus _ ih => rw [percentBytes_cons hplus hpercent, ih]
  | space _ ih => rw [percentBytes_plus, ih]

/-- The bytes of a text. -/
def utf8 (s : Text) : List UInt8 := s.flatMap String.utf8EncodeChar

/-- **Percent-decoding undoes percent-encoding.** -/
theorem percentDecode_of_encodes (s enc : Text) (h : Encodes (utf8 s) (utf8 enc)) :
    percentDecode enc = s := by
  have hbytes : percentBytes (enc.flatMap String.utf8EncodeChar) = utf8 s :=
    percentBytes_of_encodes h
  rw [percentDecode, hbytes]
  exact fromUtf8Lossy_utf8 s

/-- An `é` written as two escapes, another one written as itself, a space as `+`, a `+` as an
escape. -/
theorem percentDecode_of_encodes_mixed :
    percentDecode "%c3%A9t\u00e9+%2B".toList = "\u00e9t\u00e9 +".toList := by
  refine percentDecode_of_encodes "\u00e9t\u00e9 +".toList "%c3%A9t\u00e9+%2B".toList ?_
  have hbytes : utf8 "\u00e9t\u00e9 +".toList = [0xC3, 0xA9, 0x74, 0xC3, 0xA9, 0x20, 0x2B] := by
    decide +kernel
  have henc : utf8 "%c3%A9t\u00e9+%2B".toList =
      37 :: 0x63 :: 0x33 :: 37 :: 0x41 :: 0x39 :: 0x74 :: 0xC3 :: 0xA9 :: 43 ::
        37 :: 0x32 :: 0x42 :: [] := by
    decide +kernel
  rw [hbytes, henc]
  refine .escape (by decide +kernel) (by decide +kernel) <|
    .escape (by decide +kernel) (by decide +kernel) <| .itself (by decide) (by decide) <|
    .itself (by decide) (by decide) <| .itself (by decide) (by decide) <| .space <|
    .escape (by decide +kernel) (by decide +kernel) .nil

/-! ## A stray percent sign -/

/-- The byte that the next two stand for, if they are hex digits. -/
def escaped : List UInt8 → Option UInt8
  | hi :: lo :: _ => (hexDigit hi).bind fun hv ↦ (hexDigit lo).map fun lv ↦ hv * 16 + lv
  | _ => none

/-- The reference: a `%` with two hex digits is the byte they stand for, `+` is a space, and any
other byte, a stray `%` included, is itself and decoding goes on with the next one. The first
`skip` bytes are the digits of an escape. -/
def reference : ℕ → List UInt8 → List UInt8
  | _, [] => []
  | skip + 1, _ :: rest => reference skip rest
  | 0, b :: rest =>
    if b = 43 then 32 :: reference 0 rest
    else if b = 37 then
      match escaped rest with
      | some v => v :: reference 2 rest
      | none => 37 :: reference 0 rest
    else b :: reference 0 rest

/-- The byte `b` does not stand for itself, with these after it. -/
def Special (b : UInt8) (rest : List UInt8) : Prop :=
  b = 43 ∨ b = 37 ∧ (escaped rest).isSome = true

/-- Where the loop comes to a stray `%`, the bytes it copies with it (two, if there are as many)
stand for themselves. -/
def NothingSwallowed : List UInt8 → Prop
  | [] => True
  | b :: rest =>
    if b = 37 then
      match rest with
      | hi :: lo :: rest' =>
        (escaped rest = none → ¬Special hi (lo :: rest') ∧ ¬Special lo rest') ∧
          NothingSwallowed rest'
      | [c] => ¬Special c []
      | [] => True
    else NothingSwallowed rest

/-- A weight of bytes that lossy decoding keeps. -/
def byteWeight (b : UInt8) : ℕ := if b = 43 then 2 else if b.toNat < 128 then 1 else 0

def weight : List UInt8 → ℕ
  | [] => 0
  | b :: rest => byteWeight b + weight rest

section

variable {b hi lo v : UInt8} {rest : List UInt8}

@[simp]
theorem weight_cons (b : UInt8) (rest : List UInt8) :
    weight (b :: rest) = byteWeight b + weight rest := rfl

theorem byteWeight_le (b : UInt8) : byteWeight b ≤ 2 := by
  rw [byteWeight]
  split_ifs <;> omega

theorem hexDigit_ordinary (h : hexDigit b = some v) : b ≠ 43 ∧ b ≠ 37 ∧ byteWeight b = 1 := by
  obtain ⟨hlow, hhigh⟩ := hexDigit_range h
  have hplus : b ≠ 43 := by
    rintro rfl
    simp at hlow
  have hpercent : b ≠ 37 := by
    rintro rfl
    simp at hlow
  refine ⟨hplus, hpercent, ?_⟩
  rw [byteWeight, if_neg hplus, if_pos (by omega)]

theorem escaped_eq_some (h : escaped rest = some v) : ∃ hi lo rest' hv lv,
    rest = hi :: lo :: rest' ∧ hexDigit hi = some hv ∧ hexDigit lo = some lv ∧
      hv * 16 + lv = v := by
  match rest with
  | [] => simp [escaped] at h
  | [c] => simp [escaped] at h
  | hi :: lo :: rest' =>
    obtain ⟨hv, hhi, h⟩ := Option.bind_eq_some_iff.mp h
    obtain ⟨lv, hlo, h⟩ := Option.map_eq_some_iff.mp h
    exact ⟨hi, lo, rest', hv, lv, rfl, hhi, hlo, h⟩

theorem reference_cons (hplus : b ≠ 43) (hpercent : b ≠ 37) :
    reference 0 (b :: rest) = b :: reference 0 rest := by
  rw [reference, if_neg hplus, if_neg hpercent]

/-- A byte that stands for itself comes out. -/
theorem reference_of_not_special (h : ¬Special b rest) :
    reference 0 (b :: rest) = b :: reference 0 rest := by
  obtain ⟨hplus, hescape⟩ := not_or.mp h
  by_cases hpercent : b = 37
  · have hstray : escaped rest = none :=
      Option.not_isSome_iff_eq_none.mp fun hsome ↦ hescape ⟨hpercent, hsome⟩
    rw [reference, if_neg hplus, if_pos hpercent, hstray, hpercent]
  · exact reference_cons hplus hpercent

/-- One that does not is lighter for it: a `+` weighs more than a space, and an escape more than
any byte. -/
theorem weight_reference_of_special (h : Special b rest) :
    weight (reference 0 (b :: rest)) < byteWeight b + weight (reference 0 rest) := by
  rcases h with rfl | ⟨rfl, hescape⟩
  · rw [reference, if_pos rfl, weight_cons]
    exact Nat.add_lt_add_right (by decide) _
  · obtain ⟨v, hv⟩ := Option.isSome_iff_exists.mp hescape
    obtain ⟨hi, lo, rest', hv', lv, rfl, hhi, hlo, -⟩ := escaped_eq_some hv
    obtain ⟨hhi1, hhi2, hwhi⟩ := hexDigit_ordinary hhi
    obtain ⟨hlo1, hlo2, hwlo⟩ := hexDigit_ordinary hlo
    have hpercent : byteWeight 37 = 1 := by decide
    have hvalue := byteWeight_le v
    rw [reference, if_neg (by decide), if_pos rfl, hv, reference_cons hhi1 hhi2,
      reference_cons hlo1 hlo2]
    simp only [reference, weight_cons]
    omega

theorem weight_reference_le (b : UInt8) (rest : List UInt8) :
    weight (reference 0 (b :: rest)) ≤ byteWeight b + weight (reference 0 rest) := by
  by_cases h : Special b rest
  · exact (weight_reference_of_special h).le
  · rw [reference_of_not_special h, weight_cons]

theorem percentBytes_stray (h : escaped (hi :: lo :: rest) = none) :
    percentBytes (37 :: hi :: lo :: rest) = 37 :: hi :: lo :: percentBytes rest := by
  rw [percentBytes, if_neg (by decide), if_pos rfl]
  cases hhi : hexDigit hi with
  | none => rfl
  | some hv =>
    cases hlo : hexDigit lo with
    | none => rfl
    | some lv => simp [escaped, hhi, hlo] at h

theorem nothingSwallowed_cons (h : b ≠ 37) :
    NothingSwallowed (b :: rest) ↔ NothingSwallowed rest := by
  rw [NothingSwallowed.eq_def]
  exact iff_of_eq (if_neg h)

theorem nothingSwallowed_percent : NothingSwallowed (37 :: hi :: lo :: rest) ↔
    (escaped (hi :: lo :: rest) = none → ¬Special hi (lo :: rest) ∧ ¬Special lo rest) ∧
      NothingSwallowed rest := by
  rw [NothingSwallowed, if_pos rfl]

theorem reference_stray (h : escaped rest = none) :
    reference 0 (37 :: rest) = 37 :: reference 0 rest :=
  reference_of_not_special (by simp [Special, h])

/-- Either nothing is swallowed, and the loop is the reference, or the loop's bytes are heavier. -/
theorem percentBytes_cases (bytes : List UInt8) :
    NothingSwallowed bytes ∧ percentBytes bytes = reference 0 bytes ∨
      ¬NothingSwallowed bytes ∧ weight (reference 0 bytes) < weight (percentBytes bytes) := by
  induction bytes using percentBytes.induct with
  | case1 => exact Or.inl ⟨trivial, rfl⟩
  | case2 rest ih =>
    rw [nothingSwallowed_cons (by decide), percentBytes_plus, reference, if_pos rfl, weight_cons,
      weight_cons, List.cons.injEq, Nat.add_lt_add_iff_left]
    simpa using ih
  | case3 hi lo rest hv lv hlo hhi _ ih =>
    have hvalue : escaped (hi :: lo :: rest) = some (hv * 16 + lv) := by simp [escaped, hhi, hlo]
    rw [nothingSwallowed_percent, percentBytes_escape hhi hlo, reference, if_neg (by decide),
      if_pos rfl, hvalue]
    simpa [reference] using ih
  | case4 hi lo rest hstray _ ih =>
    have hnone : escaped (hi :: lo :: rest) = none := by
      cases hvalue : escaped (hi :: lo :: rest) with
      | none => rfl
      | some v =>
        obtain ⟨_, _, _, hv, lv, heq, hhi, hlo, -⟩ := escaped_eq_some hvalue
        simp only [List.cons.injEq] at heq
        obtain ⟨rfl, rfl, rfl⟩ := heq
        exact (hstray hv lv hhi hlo).elim
    have hhi := weight_reference_le hi (lo :: rest)
    have hlo := weight_reference_le lo rest
    have hrest : weight (reference 0 rest) ≤ weight (percentBytes rest) :=
      ih.elim (fun h ↦ by rw [h.2]) fun h ↦ h.2.le
    rw [nothingSwallowed_percent, percentBytes_stray hnone, reference_stray hnone]
    simp only [weight_cons]
    by_cases hs : ¬Special hi (lo :: rest) ∧ ¬Special lo rest
    · rw [reference_of_not_special hs.1, reference_of_not_special hs.2]
      rcases ih with ⟨hnothing, heq⟩ | ⟨hsome, hlt⟩
      · exact Or.inl ⟨⟨fun _ ↦ hs, hnothing⟩, by rw [heq]⟩
      · refine Or.inr ⟨fun h ↦ hsome h.2, ?_⟩
        simp only [weight_cons]
        omega
    · -- one of the two bytes is special, and the reference is lighter there
      refine Or.inr ⟨fun h ↦ hs (h.1 hnone), ?_⟩
      rcases not_and_or.mp hs with hspecial | hspecial
      · have := weight_reference_of_special (not_not.mp hspecial)
        omega
      · have := weight_reference_of_special (not_not.mp hspecial)
        omega
  | case5 c _ =>
    have hnone : escaped [c] = none := rfl
    have hcopied : percentBytes [37, c] = [37, c] := rfl
    rw [reference_stray hnone, hcopied]
    by_cases hs : Special c []
    · have hlt := weight_reference_of_special hs
      rw [reference] at hlt
      refine Or.inr ⟨fun h ↦ h hs, ?_⟩
      simp only [weight_cons]
      omega
    · refine Or.inl ⟨hs, ?_⟩
      rw [reference_of_not_special hs]
      rfl
  | case6 _ => exact Or.inl ⟨trivial, rfl⟩
  | case7 b rest hplus hpercent ih =>
    rw [nothingSwallowed_cons hpercent, percentBytes_cons hplus hpercent,
      reference_cons hplus hpercent, weight_cons, weight_cons, List.cons.injEq,
      Nat.add_lt_add_iff_left]
    simpa using ih

end

/-! ## What lossy decoding keeps -/

def charWeight (c : Char) : ℕ := if c = '+' then 2 else 1

def textWeight : Text → ℕ
  | [] => 0
  | c :: s => charWeight c + textWeight s

/-- The weight of the bytes can be read off the text. -/
theorem weight_eq (bytes : List UInt8) :
    weight bytes = textWeight ((fromUtf8Lossy 0 bytes).filter (·.toNat < 128)) := by
  rw [filter_fromUtf8Lossy, List.drop_zero]
  induction bytes with
  | nil => rfl
  | cons b rest ih =>
    have hbyte := b.toNat_lt
    have hchar : (Char.ofNat b.toNat).toNat = b.toNat := toNat_ofNat_of_valid (by omega)
    have hplus : Char.ofNat b.toNat = '+' ↔ b = 43 := by
      rw [← Char.toNat_inj, ← UInt8.toNat_inj, hchar]
      rfl
    rw [weight_cons, ih, List.filter_cons, byteWeight]
    by_cases hascii : b.toNat < 128
    · rw [if_pos (decide_eq_true hascii), List.map_cons, textWeight, charWeight, if_pos hascii]
      simp only [hplus]
    · have hne : b ≠ 43 := by
        rintro rfl
        exact hascii (by decide)
      rw [if_neg hne, if_neg hascii, if_neg (by simpa using hascii), Nat.zero_add]

/-- **A malformed escape swallows nothing that follows it** exactly if, wherever the loop comes to
one, the bytes it copies stand for themselves. The bytes of a text are those of its UTF-8 form. -/
theorem percentDecode_eq_reference_iff (bytes : List UInt8) :
    fromUtf8Lossy 0 (percentBytes bytes) = fromUtf8Lossy 0 (reference 0 bytes) ↔
      NothingSwallowed bytes := by
  rcases percentBytes_cases bytes with ⟨hnothing, heq⟩ | ⟨hsome, hlt⟩
  · exact iff_of_true (by rw [heq]) hnothing
  · refine iff_of_false (fun heq ↦ ?_) hsome
    rw [weight_eq, weight_eq (percentBytes bytes), heq] at hlt
    exact lt_irrefl _ hlt

/-- The escape of an `A` after a stray `%` is copied. -/
theorem percentDecode_ne_reference_stray :
    percentDecode "%%41".toList ≠ fromUtf8Lossy 0 (reference 0 (utf8 "%%41".toList)) := by
  decide +kernel

example : percentDecode "100%+sure".toList = "100%+sure".toList := by decide +kernel

end Text

end SurrealPg
