import Mathlib.Data.Nat.Digits.Lemmas
import RustMetrics.Fingerprint

/-! Fingerprints as bytes. A fingerprint is a number of 64 bits, and eight bytes where it is
hashed as a part of another, the highest first. No bytes are lost either way, and since all
fingerprints have as many, a list of them can be read back from its bytes. -/

namespace RustMetrics

theorem Blake2b.length_digest (bytes : List UInt8) : (digest bytes).length = 8 := by
  rw [digest, bytesOf, List.length_map, List.length_range]

namespace Fingerprint

theorem length_bytes (f : Fingerprint) : f.bytes.length = 8 := by
  rw [bytes, List.length_map, List.length_range]

theorem ofBytes_concat (bs : List UInt8) (b : UInt8) :
    (ofBytes (bs ++ [b])).word = ((ofBytes bs).word <<< 8) ||| b.toUInt64 := by
  simp [ofBytes]

theorem digit_lt {bs : List UInt8} : ∀ d ∈ bs.reverse.map UInt8.toNat, d < 256 := by
  intro d hd
  obtain ⟨b, _, rfl⟩ := List.mem_map.mp hd
  exact b.toNat_lt

/-- Eight bytes or less are the digits of a number, so the shifts lose nothing. -/
theorem toNat_ofBytes {bs : List UInt8} (h : bs.length ≤ 8) :
    (ofBytes bs).word.toNat = Nat.ofDigits 256 (bs.reverse.map UInt8.toNat) := by
  induction bs using List.reverseRecOn with
  | nil => rfl
  | append_singleton bs b ih =>
    rw [List.length_append, List.length_singleton] at h
    have hsmall : Nat.ofDigits 256 (bs.reverse.map UInt8.toNat) < 256 ^ 7 := by
      refine (Nat.ofDigits_lt_base_pow_length (by decide) digit_lt).trans_le ?_
      rw [List.length_map, List.length_reverse]
      exact Nat.pow_le_pow_right (by decide) (by omega)
    have hshift : Nat.ofDigits 256 (bs.reverse.map UInt8.toNat) <<< 8 % 2 ^ 64 =
        Nat.ofDigits 256 (bs.reverse.map UInt8.toNat) <<< 8 := by
      rw [Nat.shiftLeft_eq, Nat.mod_eq_of_lt (by omega)]
    have hb : b.toUInt64.toNat < 2 ^ 8 := by
      rw [UInt8.toNat_toUInt64]
      exact b.toNat_lt
    have h8 : (8 : UInt64).toNat % 64 = 8 := rfl
    rw [ofBytes_concat, UInt64.toNat_or, UInt64.toNat_shiftLeft, ih (by omega), h8, hshift,
      ← Nat.shiftLeft_add_eq_or_of_lt hb, Nat.shiftLeft_eq, UInt8.toNat_toUInt64,
      List.reverse_append, List.reverse_singleton, List.singleton_append, List.map_cons,
      Nat.ofDigits_cons]
    omega

theorem eq_of_ofBytes_eq {bs cs : List UInt8} (hb : bs.length = 8) (hc : cs.length = 8)
    (h : ofBytes bs = ofBytes cs) : bs = cs := by
  have hnum := congrArg (fun f => f.word.toNat) h
  simp only [toNat_ofBytes hb.le, toNat_ofBytes hc.le] at hnum
  have hmap := Nat.ofDigits_inj_of_len_eq (by decide) (by simp [hb, hc]) digit_lt digit_lt hnum
  exact List.reverse_injective (List.map_injective_iff.mpr (fun _ _ => UInt8.toNat_inj.mp) hmap)

theorem ofBytes_bytes (f : Fingerprint) : ofBytes f.bytes = f := by
  have hnum : (ofBytes f.bytes).word.toNat = f.word.toNat := by
    have hlt := f.word.toNat_lt
    have hbytes : f.bytes.reverse.map UInt8.toNat =
        (List.range 8).map fun i => f.word.toNat / 256 ^ i % 256 := by
      simp [bytes, List.range_succ, Nat.shiftRight_eq_div_pow]
    rw [toNat_ofBytes f.length_bytes.le, hbytes]
    simp only [List.range_succ, List.range_zero, List.nil_append, List.cons_append, List.map_cons,
      List.map_nil, Nat.ofDigits_cons, Nat.ofDigits_nil]
    omega
  exact congrArg Fingerprint.mk (UInt64.toNat_inj.mp hnum)

theorem bytes_ofBytes {bs : List UInt8} (h : bs.length = 8) : (ofBytes bs).bytes = bs :=
  eq_of_ofBytes_eq (length_bytes _) h (ofBytes_bytes _)

/-- The bytes are the digits of the word, highest first. -/
theorem toNat_word (f : Fingerprint) :
    f.word.toNat = Nat.ofDigits 256 (f.bytes.reverse.map UInt8.toNat) := by
  rw [← toNat_ofBytes f.length_bytes.le, ofBytes_bytes]

theorem length_flatMap_bytes (fs : List Fingerprint) :
    (fs.flatMap bytes).length = 8 * fs.length := by
  induction fs with
  | nil => rfl
  | cons f fs ih =>
    rw [List.flatMap_cons, List.length_append, length_bytes, ih, List.length_cons]
    omega

/-- Bytes are cut into fingerprints in one way. -/
theorem eq_of_flatMap_bytes_eq {fs gs : List Fingerprint}
    (h : fs.flatMap bytes = gs.flatMap bytes) : fs = gs := by
  induction fs generalizing gs with
  | nil =>
    have hlen := congrArg List.length h
    rw [length_flatMap_bytes, length_flatMap_bytes, List.length_nil] at hlen
    exact (List.length_eq_zero_iff.mp (by omega)).symm
  | cons f fs ih =>
    cases gs with
    | nil =>
      have hlen := congrArg List.length h
      rw [length_flatMap_bytes, length_flatMap_bytes] at hlen
      cases hlen
    | cons g gs =>
      rw [List.flatMap_cons, List.flatMap_cons] at h
      obtain ⟨hf, hfs⟩ := List.append_inj h (f.length_bytes.trans g.length_bytes.symm)
      rw [← ofBytes_bytes f, hf, ofBytes_bytes, ih hfs]

/-- What is left of some fingerprints is fingerprints only after a whole number of them. -/
theorem exists_first_of_flatMap_bytes {fs gs : List Fingerprint} {lead : List UInt8}
    (h : fs.flatMap bytes = lead ++ gs.flatMap bytes) :
    ∃ first, fs = first ++ gs ∧ lead = first.flatMap bytes := by
  have hlen := congrArg List.length h
  rw [List.length_append, length_flatMap_bytes, length_flatMap_bytes] at hlen
  let n := fs.length - gs.length
  have hcut : (fs.take n).flatMap bytes ++ (fs.drop n).flatMap bytes =
      lead ++ gs.flatMap bytes := by
    rw [← List.flatMap_append, List.take_append_drop, h]
  have hn : ((fs.take n).flatMap bytes).length = lead.length := by
    rw [length_flatMap_bytes, List.length_take]
    omega
  obtain ⟨hlead, hgs⟩ := List.append_inj hcut hn
  refine ⟨fs.take n, ?_, hlead.symm⟩
  have hrest : fs.drop n = gs := eq_of_flatMap_bytes_eq hgs
  calc fs = fs.take n ++ fs.drop n := (List.take_append_drop n fs).symm
    _ = fs.take n ++ gs := by rw [hrest]

end Fingerprint

end RustMetrics
