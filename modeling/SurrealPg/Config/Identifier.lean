import Mathlib
import SurrealPg.Config.Utf8
import SurrealPg.Config.PgConfig

/-!
# The language of table names

`validate_identifier` is the one check between a value of the URL and the SQL text it is written
into. Here is the language it accepts, with the reserved words as a set. The lookup of a reserved
word is a binary search along one of two paths: a name whose bytes are all upper case is looked up
as it is, any other one by its upper case. The paths agree because upper case does not change what
is upper case, and the search agrees with a search of the whole list, without regard to case,
because the list is sorted and is itself in upper case.
-/

namespace SurrealPg

open Text

namespace Text

/-- `eq_ignore_ascii_case` -/
def eqIgnoreAsciiCase (a b : Text) : Bool := a.asciiLowercase == b.asciiLowercase

theorem asciiLowercase_asciiUppercase (s : Text) :
    s.asciiUppercase.asciiLowercase = s.asciiLowercase := by
  rw [asciiLowercase, asciiUppercase, List.map_map]
  exact List.map_congr_left fun c _ ↦ Char.toLower_toUpper_eq_toLower c

theorem asciiUppercase_asciiLowercase (s : Text) :
    s.asciiLowercase.asciiUppercase = s.asciiUppercase := by
  rw [asciiLowercase, asciiUppercase, List.map_map]
  exact List.map_congr_left fun c _ ↦ Char.toUpper_toLower_eq_toUpper c

end Text

/-! ## The two paths -/

theorem not_isLower_of_isUpperByte {c : Char}
    (h : ∀ b ∈ String.utf8EncodeChar c, isUpperByte b = true) : ¬c.isLower = true := by
  intro hlower
  have hrange : 97 ≤ c.toNat ∧ c.toNat ≤ 122 := by
    simpa [Char.isLower, UInt32.le_iff_toNat_le] using hlower
  have hbytes : String.utf8EncodeChar c = [UInt8.ofNat c.toNat] :=
    if_pos (show c.val.toNat ≤ 127 from hrange.2.trans (by decide))
  have hb := h (UInt8.ofNat c.toNat) (by rw [hbytes]; exact List.mem_singleton_self _)
  have hnat : (UInt8.ofNat c.toNat).toNat = c.toNat := toNat_ofNat_of_lt (by omega)
  simp only [isUpperByte, Bool.or_eq_true, Bool.and_eq_true, decide_eq_true_eq, beq_iff_eq,
    UInt8.le_iff_toNat_le, ← UInt8.toNat_inj, hnat, UInt8.reduceToNat] at hb
  omega

theorem asciiUppercase_of_isUpperByte {name : Text}
    (h : (name.flatMap String.utf8EncodeChar).all isUpperByte = true) :
    name.asciiUppercase = name := by
  rw [List.all_eq_true] at h
  refine (List.map_congr_left fun c hc ↦ ?_).trans (List.map_id name)
  have hbytes : ∀ b ∈ String.utf8EncodeChar c, isUpperByte b = true := fun b hb ↦
    h b (List.mem_flatMap.mpr ⟨c, hc, hb⟩)
  exact Char.toUpper_eq_of_not_isLower (not_isLower_of_isUpperByte hbytes)

/-- The assertion of the source that the array is sorted. -/
theorem pairwise_reserved : RESERVED.Pairwise (· < ·) :=
  List.isChain_iff_pairwise.mp (by decide +kernel)

/-- Both paths look the upper case up. -/
theorem isSqlReserved_iff (name : Text) :
    isSqlReserved name = true ↔ String.ofList name.asciiUppercase ∈ RESERVED := by
  have hfound := fun word ↦ Semantics.isSome_binarySearch_iff (l := RESERVED) (x := word)
    (fun _ _ ↦ String.lt_asymm) pairwise_reserved
  rw [isSqlReserved]
  split_ifs with hupper
  · rw [hfound, asciiUppercase_of_isUpperByte hupper]
  · rw [hfound]

theorem asciiUppercase_reserved {word : String} (h : word ∈ RESERVED) :
    asciiUppercase word.toList = word.toList := by
  have hall : ∀ word ∈ RESERVED, asciiUppercase word.toList = word.toList := by decide +kernel
  exact hall word h

theorem any_eqIgnoreAsciiCase_iff (name : Text) :
    (RESERVED.any fun word ↦ eqIgnoreAsciiCase word.toList name) = true ↔
      String.ofList name.asciiUppercase ∈ RESERVED := by
  rw [List.any_eq_true]
  constructor
  · rintro ⟨word, hword, heq⟩
    have hlower : asciiLowercase word.toList = name.asciiLowercase := beq_iff_eq.mp heq
    have hupper : name.asciiUppercase = word.toList := by
      rw [← asciiUppercase_asciiLowercase, ← hlower, asciiUppercase_asciiLowercase,
        asciiUppercase_reserved hword]
    rwa [hupper, String.ofList_toList]
  · intro h
    refine ⟨_, h, beq_iff_eq.mpr ?_⟩
    rw [String.toList_ofList, asciiLowercase_asciiUppercase]

/-! ## The language -/

/-- `1` to `63` bytes, a letter or `_` and then letters, digits and `_`, and no reserved word. -/
structure InLanguage (name : String) : Prop where
  length : 1 ≤ name.utf8ByteSize ∧ name.utf8ByteSize ≤ 63
  first : ∃ c ∈ name.toList.head?, c.isAlpha = true ∨ c = '_'
  chars : ∀ c ∈ name.toList, c.isAlphanum = true ∨ c = '_'
  not_reserved : String.ofList (asciiUppercase name.toList) ∉ RESERVED

theorem isIdentifierStart_iff {c : Char} :
    isIdentifierStart c = true ↔ c.isAlpha = true ∨ c = '_' := by
  rw [isIdentifierStart, Bool.or_eq_true, beq_iff_eq]

theorem isIdentifierChar_iff {c : Char} :
    isIdentifierChar c = true ↔ c.isAlphanum = true ∨ c = '_' := by
  rw [isIdentifierChar, Bool.or_eq_true, beq_iff_eq]

/-- **`validate_identifier` accepts exactly its language**, and the two-path binary search agrees
with a search of the whole list without regard to case. -/
theorem validateIdentifier_eq_ok_iff (name : String) :
    (validateIdentifier name = .ok () ↔ InLanguage name) ∧
      isSqlReserved name.toList =
        RESERVED.any fun word ↦ eqIgnoreAsciiCase word.toList name.toList := by
  refine ⟨?_, Bool.eq_iff_iff.mpr ((isSqlReserved_iff name.toList).trans
    (any_eqIgnoreAsciiCase_iff name.toList).symm)⟩
  rw [validateIdentifier]
  cases hname : name.toList with
  | nil =>
    refine iff_of_false (by simp) fun h ↦ ?_
    obtain ⟨c, hc, -⟩ := h.first
    rw [hname] at hc
    simp at hc
  | cons first rest =>
    have hpos : 1 ≤ name.utf8ByteSize := by
      rw [Nat.one_le_iff_ne_zero, Ne, String.utf8ByteSize_eq_zero_iff, ← String.toList_eq_nil_iff,
        hname]
      exact List.cons_ne_nil first rest
    dsimp only
    split_ifs with hfirst hall hreserved hlong
    · refine iff_of_false (by simp) fun h ↦ ?_
      obtain ⟨c, hc, hstart⟩ := h.first
      rw [hname, List.head?_cons, Option.mem_some_iff] at hc
      rw [Bool.not_eq_true', ← Bool.not_eq_true, isIdentifierStart_iff, hc] at hfirst
      exact hfirst hstart
    · refine iff_of_false (by simp) fun h ↦ ?_
      have hchars : (first :: rest).all isIdentifierChar = true :=
        List.all_eq_true.mpr fun c hc ↦ isIdentifierChar_iff.mpr (h.chars c (hname ▸ hc))
      rw [hchars] at hall
      exact Bool.false_ne_true hall
    · refine iff_of_false (by simp) fun h ↦ h.not_reserved ?_
      rw [hname]
      exact (isSqlReserved_iff _).mp hreserved
    · exact iff_of_false (by simp) fun h ↦ not_lt.mpr h.length.2 hlong
    · refine iff_of_true rfl ⟨⟨hpos, not_lt.mp hlong⟩, ⟨first, by rw [hname]; rfl, ?_⟩, ?_, ?_⟩
      · simpa [isIdentifierStart_iff] using hfirst
      · rw [hname]
        have hchars : (first :: rest).all isIdentifierChar = true := by simpa using hall
        exact fun c hc ↦ isIdentifierChar_iff.mp (List.all_eq_true.mp hchars c hc)
      · rw [hname, ← isSqlReserved_iff]
        exact hreserved

end SurrealPg
