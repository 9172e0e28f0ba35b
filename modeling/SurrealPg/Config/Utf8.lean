import Mathlib.Data.List.TakeWhile
import SurrealPg.Config.Text

/-!
# Lossy decoding

Two facts about `from_utf8_lossy`. On the UTF-8 form of a text it gives the text back. And whatever
the bytes are, those below 128 come out one by one, as the characters they stand for, and nothing
else that comes out is below 128: a sequence that is broken off never takes an ASCII byte with it,
and no sequence stands for an ASCII character.

Both rest on what a complete sequence stands for, which is a matter of its length and of the range
of the byte after the first.
-/

namespace SurrealPg

namespace Text

variable {lead : UInt8} {rest more : List UInt8}

/-! ## One sequence -/

theorem continuation_begins (lead : UInt8) (rest : List UInt8) :
    continuation lead rest <+: rest := by
  have htake := rest.take_prefix (sequenceLength lead - 1)
  rw [continuation]
  split
  · exact List.nil_prefix
  · next b bs heq =>
    rw [heq] at htake
    split_ifs
    · exact ((List.prefix_cons_inj b).mpr (List.takeWhile_prefix _)).trans htake
    · exact List.nil_prefix

theorem mayFollow_iff {b : UInt8} : mayFollow lead b = true ↔
    128 ≤ b.toNat ∧ b.toNat ≤ 191 ∧ (lead.toNat = 224 → 160 ≤ b.toNat) ∧
      (lead.toNat = 237 → b.toNat ≤ 159) ∧ (lead.toNat = 240 → 144 ≤ b.toNat) ∧
      (lead.toNat = 244 → b.toNat ≤ 143) := by
  simp only [mayFollow, ← UInt8.toNat_inj, UInt8.reduceToNat]
  split_ifs <;>
    · simp only [Bool.and_eq_true, decide_eq_true_eq, UInt8.le_iff_toNat_le, UInt8.reduceToNat]
      omega

theorem continuation_high {b : UInt8} (h : b ∈ continuation lead rest) : 128 ≤ b.toNat := by
  rw [continuation] at h
  split at h
  · exact absurd h List.not_mem_nil
  · split_ifs at h with hfollow
    · rcases List.mem_cons.mp h with rfl | h
      · exact (mayFollow_iff.mp hfollow).1
      · have hb := List.mem_takeWhile_imp h
        simp only [Bool.and_eq_true, decide_eq_true_eq, UInt8.le_iff_toNat_le] at hb
        exact hb.1
    · exact absurd h List.not_mem_nil

theorem sequenceLength_eq (lead : UInt8) : sequenceLength lead =
    if lead.toNat < 128 then 1 else if 194 ≤ lead.toNat ∧ lead.toNat ≤ 223 then 2
    else if 224 ≤ lead.toNat ∧ lead.toNat ≤ 239 then 3
    else if 240 ≤ lead.toNat ∧ lead.toNat ≤ 244 then 4 else 0 := by
  simp only [sequenceLength, UInt8.lt_iff_toNat_lt, UInt8.le_iff_toNat_le, UInt8.reduceToNat]

theorem lead_of_sequenceLength (lead : UInt8) : sequenceLength lead ≤ 4 ∧
    (sequenceLength lead = 1 → lead.toNat < 128) ∧
    (sequenceLength lead = 2 → 194 ≤ lead.toNat ∧ lead.toNat ≤ 223) ∧
    (sequenceLength lead = 3 → 224 ≤ lead.toNat ∧ lead.toNat ≤ 239) ∧
    (sequenceLength lead = 4 → 240 ≤ lead.toNat ∧ lead.toNat ≤ 244) := by
  rw [sequenceLength_eq]
  refine ⟨by split_ifs <;> omega, ?_, ?_, ?_, ?_⟩ <;>
    · intro h
      split_ifs at h <;> omega

theorem sequenceLength_of_ascii (h : lead < 0x80) : sequenceLength lead = 1 := if_pos h

theorem continuation_of_ascii (h : lead < 0x80) : continuation lead rest = [] := by
  rw [continuation, sequenceLength_of_ascii h]
  rfl

/-- The bytes of a sequence are passed over once it is decoded. -/
theorem fromUtf8Lossy_skip (skip : ℕ) (bytes : List UInt8) :
    fromUtf8Lossy skip bytes = fromUtf8Lossy 0 (bytes.drop skip) := by
  induction skip generalizing bytes with
  | zero => rfl
  | succ skip ih =>
    cases bytes with
    | nil => rfl
    | cons b bytes => rw [fromUtf8Lossy, ih, List.drop_succ_cons]

theorem fromUtf8Lossy_cons (lead : UInt8) (rest : List UInt8) :
    fromUtf8Lossy 0 (lead :: rest) =
      (if (continuation lead rest).length + 1 = sequenceLength lead then
          scalar lead (continuation lead rest) else '\uFFFD') ::
        fromUtf8Lossy 0 (rest.drop (continuation lead rest).length) := by
  rw [fromUtf8Lossy, fromUtf8Lossy_skip]

/-! ## What a sequence stands for -/

section

variable {b₁ b₂ b₃ : UInt8}

theorem scalar_two (h : sequenceLength lead = 2) :
    scalar lead [b₁] = Char.ofNat (lead.toNat % 32 * 64 + b₁.toNat % 64) := by
  rw [scalar, h]
  rfl

theorem scalar_three (h : sequenceLength lead = 3) : scalar lead [b₁, b₂] =
    Char.ofNat ((lead.toNat % 16 * 64 + b₁.toNat % 64) * 64 + b₂.toNat % 64) := by
  rw [scalar, h]
  rfl

theorem scalar_four (h : sequenceLength lead = 4) : scalar lead [b₁, b₂, b₃] =
    Char.ofNat (((lead.toNat % 8 * 64 + b₁.toNat % 64) * 64 + b₂.toNat % 64) * 64 +
      b₃.toNat % 64) := by
  rw [scalar, h]
  rfl

end

/-! ## The UTF-8 form of a text -/

/-- A sequence that is found where it begins, whatever follows, and stands for `c`. -/
structure Encodes1 (c : Char) (lead : UInt8) (more : List UInt8) : Prop where
  eq : String.utf8EncodeChar c = lead :: more
  found : ∀ rest, continuation lead (more ++ rest) = more
  complete : more.length + 1 = sequenceLength lead
  scalar_eq : scalar lead more = c

theorem continuation_append {b : UInt8} {bs : List UInt8} (rest : List UInt8)
    (hlen : sequenceLength lead = bs.length + 2) (hfollow : mayFollow lead b = true)
    (htail : ∀ x ∈ bs, 128 ≤ x.toNat ∧ x.toNat ≤ 191) :
    continuation lead (b :: bs ++ rest) = b :: bs := by
  have hall : bs.takeWhile (fun x ↦ 0x80 ≤ x && x ≤ 0xBF) = bs := by
    refine List.takeWhile_eq_self_iff.mpr fun x hx ↦ ?_
    simpa only [Bool.and_eq_true, decide_eq_true_eq, UInt8.le_iff_toNat_le, UInt8.reduceToNat]
      using htail x hx
  have htake : (b :: bs ++ rest).take (bs.length + 2 - 1) = b :: bs := List.take_left' rfl
  rw [continuation, hlen, htake]
  dsimp only
  rw [if_pos hfollow, hall]

section

variable {c : Char} {b₁ b₂ b₃ : UInt8}

theorem encodes1_ascii (heq : String.utf8EncodeChar c = [lead]) (hc : c.toNat ≤ 127)
    (hlead : lead.toNat = c.toNat) : Encodes1 c lead [] := by
  have hascii : lead < 0x80 := by
    rw [UInt8.lt_iff_toNat_lt, hlead]
    exact Nat.lt_succ_of_le hc
  refine ⟨heq, fun rest ↦ continuation_of_ascii hascii, (sequenceLength_of_ascii hascii).symm, ?_⟩
  rw [scalar, sequenceLength_of_ascii hascii, List.foldl_nil]
  exact (congrArg Char.ofNat hlead).trans (Char.ofNat_toNat c)

theorem encodes1_two (heq : String.utf8EncodeChar c = [lead, b₁]) (hlow : 128 ≤ c.toNat)
    (hhigh : c.toNat ≤ 2047) (hlead : lead.toNat = c.toNat / 64 + 192)
    (h₁ : b₁.toNat = c.toNat % 64 + 128) : Encodes1 c lead [b₁] := by
  have hlen : sequenceLength lead = 2 := by
    rw [sequenceLength_eq, if_neg (by omega), if_pos (by omega)]
  refine ⟨heq, fun rest ↦ continuation_append rest hlen (mayFollow_iff.mpr ?_) (by simp),
    hlen.symm, ?_⟩
  · omega
  · exact (scalar_two hlen).trans ((congrArg Char.ofNat (by omega)).trans (Char.ofNat_toNat c))

theorem encodes1_three (heq : String.utf8EncodeChar c = [lead, b₁, b₂]) (hlow : 2048 ≤ c.toNat)
    (hhigh : c.toNat ≤ 65535) (hlead : lead.toNat = c.toNat / 4096 + 224)
    (h₁ : b₁.toNat = c.toNat / 64 % 64 + 128) (h₂ : b₂.toNat = c.toNat % 64 + 128) :
    Encodes1 c lead [b₁, b₂] := by
  have hvalid : c.toNat < 55296 ∨ 57343 < c.toNat ∧ c.toNat < 1114112 := c.valid
  have hlen : sequenceLength lead = 3 := by
    rw [sequenceLength_eq, if_neg (by omega), if_neg (by omega), if_pos (by omega)]
  refine ⟨heq, fun rest ↦ continuation_append rest hlen (mayFollow_iff.mpr ?_) ?_, hlen.symm, ?_⟩
  · omega
  · simp only [List.forall_mem_singleton]
    omega
  · exact (scalar_three hlen).trans ((congrArg Char.ofNat (by omega)).trans (Char.ofNat_toNat c))

theorem encodes1_four (heq : String.utf8EncodeChar c = [lead, b₁, b₂, b₃]) (hlow : 65536 ≤ c.toNat)
    (hlead : lead.toNat = c.toNat / 262144 + 240) (h₁ : b₁.toNat = c.toNat / 4096 % 64 + 128)
    (h₂ : b₂.toNat = c.toNat / 64 % 64 + 128) (h₃ : b₃.toNat = c.toNat % 64 + 128) :
    Encodes1 c lead [b₁, b₂, b₃] := by
  have hvalid : c.toNat < 55296 ∨ 57343 < c.toNat ∧ c.toNat < 1114112 := c.valid
  have hlen : sequenceLength lead = 4 := by
    rw [sequenceLength_eq, if_neg (by omega), if_neg (by omega), if_neg (by omega),
      if_pos (by omega)]
  refine ⟨heq, fun rest ↦ continuation_append rest hlen (mayFollow_iff.mpr ?_) ?_, hlen.symm, ?_⟩
  · omega
  · rw [List.forall_mem_cons, List.forall_mem_singleton]
    omega
  · exact (scalar_four hlen).trans ((congrArg Char.ofNat (by omega)).trans (Char.ofNat_toNat c))

end

theorem toNat_ofNat_of_lt {n : ℕ} (h : n < 256) : (UInt8.ofNat n).toNat = n := by
  rw [UInt8.toNat_ofNat', Nat.mod_eq_of_lt h]

theorem exists_encodes1 (c : Char) : ∃ lead more, Encodes1 c lead more := by
  have hvalid : c.toNat < 55296 ∨ 57343 < c.toNat ∧ c.toNat < 1114112 := c.valid
  have hval : c.val.toNat = c.toNat := rfl
  by_cases h1 : c.toNat ≤ 127
  · exact ⟨_, _, encodes1_ascii (if_pos h1) h1 (toNat_ofNat_of_lt (by omega))⟩
  by_cases h2 : c.toNat ≤ 2047
  · refine ⟨_, _, encodes1_two ((if_neg h1).trans (if_pos h2)) (by omega) h2 ?_ ?_⟩
    · exact (toNat_ofNat_of_lt (by omega)).trans (by omega)
    · exact toNat_ofNat_of_lt (by omega)
  by_cases h3 : c.toNat ≤ 65535
  · refine ⟨_, _, encodes1_three ((if_neg h1).trans ((if_neg h2).trans (if_pos h3))) (by omega) h3
      ?_ ?_ ?_⟩
    · exact (toNat_ofNat_of_lt (by omega)).trans (by omega)
    · exact toNat_ofNat_of_lt (by omega)
    · exact toNat_ofNat_of_lt (by omega)
  · refine ⟨_, _, encodes1_four ((if_neg h1).trans ((if_neg h2).trans (if_neg h3))) (by omega)
      ?_ ?_ ?_ ?_⟩
    · exact (toNat_ofNat_of_lt (by omega)).trans (by omega)
    · exact toNat_ofNat_of_lt (by omega)
    · exact toNat_ofNat_of_lt (by omega)
    · exact toNat_ofNat_of_lt (by omega)

theorem fromUtf8Lossy_utf8 (s : Text) : fromUtf8Lossy 0 (s.flatMap String.utf8EncodeChar) = s := by
  induction s with
  | nil => rfl
  | cons c s ih =>
    obtain ⟨lead, more, h⟩ := exists_encodes1 c
    rw [List.flatMap_cons, h.eq, List.cons_append, fromUtf8Lossy_cons, h.found, if_pos h.complete,
      h.scalar_eq, List.drop_left' rfl, ih]

/-! ## The bytes below 128 -/

theorem toNat_ofNat_of_valid {n : ℕ} (h : n < 55296 ∨ 57343 < n ∧ n < 1114112) :
    (Char.ofNat n).toNat = n := by
  have hvalid : n.isValidChar := h
  rw [Char.ofNat, dif_pos hvalid]
  rfl

theorem mayFollow_of_continuation {b : UInt8} {bs : List UInt8}
    (h : continuation lead rest = b :: bs) : mayFollow lead b = true := by
  rw [continuation] at h
  split at h
  · exact absurd h.symm (List.cons_ne_nil b bs)
  · split_ifs at h with hfollow
    rwa [← (List.cons.inj h).1]

theorem scalar_high (hlead : 128 ≤ lead.toNat)
    (hlen : (continuation lead rest).length + 1 = sequenceLength lead) :
    128 ≤ (scalar lead (continuation lead rest)).toNat := by
  obtain ⟨hfour, h1, h2, h3, h4⟩ := lead_of_sequenceLength lead
  match hmore : continuation lead rest with
  | [] =>
    rw [hmore] at hlen
    exact absurd (h1 hlen.symm) (by omega)
  | [b₁] =>
    rw [hmore] at hlen
    have hfollow := mayFollow_iff.mp (mayFollow_of_continuation hmore)
    have hlead := h2 hlen.symm
    rw [scalar_two hlen.symm, toNat_ofNat_of_valid (by omega)]
    omega
  | [b₁, b₂] =>
    rw [hmore] at hlen
    have hfollow := mayFollow_iff.mp (mayFollow_of_continuation hmore)
    have hlead := h3 hlen.symm
    rw [scalar_three hlen.symm, toNat_ofNat_of_valid (by omega)]
    omega
  | [b₁, b₂, b₃] =>
    rw [hmore] at hlen
    have hfollow := mayFollow_iff.mp (mayFollow_of_continuation hmore)
    have hlead := h4 hlen.symm
    rw [scalar_four hlen.symm, toNat_ofNat_of_valid (by omega)]
    omega
  | _ :: _ :: _ :: _ :: _ =>
    rw [hmore] at hlen
    simp only [List.length_cons] at hlen
    omega

/-- A sequence takes no ASCII byte with it. -/
theorem filter_drop_continuation (lead : UInt8) (rest : List UInt8) :
    (rest.drop (continuation lead rest).length).filter (·.toNat < 128) =
      rest.filter (·.toNat < 128) := by
  have hhigh : ∀ b ∈ continuation lead rest, ¬decide (b.toNat < 128) = true := fun b hb ↦ by
    simpa using continuation_high hb
  obtain ⟨after, hafter⟩ := continuation_begins lead rest
  generalize continuation lead rest = more at hhigh hafter
  rw [← hafter, List.drop_left' rfl, List.filter_append, List.filter_eq_nil_iff.mpr hhigh,
    List.nil_append]

/-- **The ASCII characters that come out are the ASCII bytes that go in**, in their order. -/
theorem filter_fromUtf8Lossy (skip : ℕ) (bytes : List UInt8) :
    (fromUtf8Lossy skip bytes).filter (·.toNat < 128) =
      ((bytes.drop skip).filter (·.toNat < 128)).map fun b ↦ Char.ofNat b.toNat := by
  induction bytes generalizing skip with
  | nil => simp [fromUtf8Lossy]
  | cons lead rest ih =>
    cases skip with
    | succ skip => rw [fromUtf8Lossy, ih, List.drop_succ_cons]
    | zero =>
      rw [fromUtf8Lossy, List.drop_zero, List.filter_cons, List.filter_cons, ih,
        filter_drop_continuation]
      by_cases hlead : lead.toNat < 128
      · have hascii : lead < 0x80 := hlead
        have hlen := sequenceLength_of_ascii hascii
        have hchar : (Char.ofNat lead.toNat).toNat < 128 := by
          rwa [toNat_ofNat_of_valid (by omega)]
        have hscalar : scalar lead [] = Char.ofNat lead.toNat := by
          rw [scalar, hlen]
          rfl
        simp only [continuation_of_ascii hascii, hlen, List.length_nil, Nat.zero_add, if_true,
          hscalar, hchar, hlead, decide_true, List.map_cons]
      · have hhigh : ¬(if (continuation lead rest).length + 1 = sequenceLength lead then
            scalar lead (continuation lead rest) else '\uFFFD').toNat < 128 := by
          split_ifs with hlen
          · exact not_lt.mpr (scalar_high (not_lt.mp hlead) hlen)
          · decide
        rw [if_neg (by simpa using hhigh), if_neg (by simpa using hlead)]

end Text

end SurrealPg
