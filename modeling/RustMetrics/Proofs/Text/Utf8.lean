import RustMetrics.Failure

/-! Strict reading gives back every text that is written as UTF-8, and accepts no
other bytes. The bytes of a character are read as one piece, whatever follows them;
the tests on the second byte, which rule out overlong forms and surrogates, pass
because a character has neither. The other way round they leave only bytes that the
character read would be written with. Bytes are compared as numbers throughout. -/

namespace RustMetrics

namespace Utf8

theorem toList_loop (bytes : List UInt8) (i : Nat) (done : List UInt8) :
    ByteArray.toList.loop bytes.toByteArray i done = done.reverse ++ bytes.drop i := by
  induction hk : bytes.length - i generalizing i done with
  | zero =>
    have hi : ¬ i < bytes.toByteArray.size := by
      rw [List.size_toByteArray]
      omega
    rw [ByteArray.toList.loop, if_neg hi, List.drop_eq_nil_of_le (by omega), List.append_nil]
  | succ k ih =>
    have hi : i < bytes.length := by omega
    have hget : bytes.toByteArray.get! i = bytes[i] := by
      simp [ByteArray.get!, hi]
    have hsize : i < bytes.toByteArray.size := by rwa [List.size_toByteArray]
    rw [ByteArray.toList.loop, if_pos hsize, ih (i + 1) _ (by omega), hget,
      List.drop_eq_getElem_cons hi, List.reverse_cons, List.append_assoc]
    rfl

theorem toList_toByteArray (bytes : List UInt8) : bytes.toByteArray.toList = bytes := by
  rw [ByteArray.toList, toList_loop]
  rfl

theorem encode_eq_flatMap (s : String) : encode s = s.toList.flatMap String.utf8EncodeChar := by
  rw [encode, String.toUTF8_eq_toByteArray, ← String.utf8Encode_toList]
  exact toList_toByteArray _

theorem isContinuation_iff {b : UInt8} :
    isContinuation b = true ↔ 128 ≤ b.toNat ∧ b.toNat < 192 := by
  simp [isContinuation, UInt8.le_iff_toNat_le, UInt8.lt_iff_toNat_lt]

theorem isSecond_iff {a b : UInt8} : isSecond a b = true ↔
    (128 ≤ b.toNat ∧ b.toNat < 192) ∧ (a.toNat = 224 → 160 ≤ b.toNat) ∧
      (a.toNat = 237 → b.toNat < 160) ∧ (a.toNat = 240 → 144 ≤ b.toNat) ∧
      (a.toNat = 244 → b.toNat < 144) := by
  simp only [isSecond, Bool.and_eq_true, Bool.or_eq_true, bne_iff_ne, ne_eq, decide_eq_true_eq,
    isContinuation_iff, UInt8.le_iff_toNat_le, UInt8.lt_iff_toNat_lt, ← UInt8.toNat_inj]
  have h224 : (0xE0 : UInt8).toNat = 224 := rfl
  have h237 : (0xED : UInt8).toNat = 237 := rfl
  have h240 : (0xF0 : UInt8).toNat = 240 := rfl
  have h244 : (0xF4 : UInt8).toNat = 244 := rfl
  have h160 : (0xA0 : UInt8).toNat = 160 := rfl
  have h144 : (0x90 : UInt8).toNat = 144 := rfl
  omega

theorem next_eq (a : UInt8) (rest : List UInt8) : next a rest =
    if a.toNat < 128 then (.char (Char.ofNat a.toNat), rest)
    else if a.toNat < 194 then (.refused a [] .badStart, rest)
    else if a.toNat < 224 then readTwo a rest
    else if a.toNat < 240 then readThree a rest
    else if a.toNat < 245 then readFour a rest
    else (.refused a [] .badStart, rest) := by
  simp only [next, UInt8.lt_iff_toNat_lt]
  rfl

variable {a b c d : UInt8} {rest : List UInt8}

theorem next_two (h : 194 ≤ a.toNat) (h' : a.toNat < 224) (hb : isSecond a b = true) :
    next a (b :: rest) = (.char (Char.ofNat (a.toNat % 32 * 64 + low b)), rest) := by
  rw [next_eq, if_neg (by omega), if_neg (by omega), if_pos h', readTwo, if_pos hb]

theorem next_three (h : 224 ≤ a.toNat) (h' : a.toNat < 240) (hb : isSecond a b = true)
    (hc : isContinuation c = true) :
    next a (b :: c :: rest) =
      (.char (Char.ofNat (a.toNat % 16 * 4096 + low b * 64 + low c)), rest) := by
  rw [next_eq, if_neg (by omega), if_neg (by omega), if_neg (by omega), if_pos h', readThree,
    if_pos hb]
  simp only [hc, if_true]

theorem next_four (h : 240 ≤ a.toNat) (h' : a.toNat < 245) (hb : isSecond a b = true)
    (hc : isContinuation c = true) (hd : isContinuation d = true) :
    next a (b :: c :: d :: rest) =
      (.char (Char.ofNat (a.toNat % 8 * 262144 + low b * 4096 + low c * 64 + low d)), rest) := by
  rw [next_eq, if_neg (by omega), if_neg (by omega), if_neg (by omega), if_neg (by omega),
    if_pos h', readFour, if_pos hb]
  simp only [hc, hd, if_true]

/-- The bytes of a character are read as that character, whatever follows. -/
theorem next_utf8EncodeChar (c : Char) (rest : List UInt8) :
    ∃ a more, String.utf8EncodeChar c = a :: more ∧ next a (more ++ rest) = (.char c, rest) := by
  have hvalid : c.toNat < 0xD800 ∨ 0xDFFF < c.toNat ∧ c.toNat < 0x110000 := c.valid
  have byte : ∀ n, n < 256 → (UInt8.ofNat n).toNat = n := fun n h => UInt8.toNat_ofNat_of_lt' h
  have back : ∀ {n}, n = c.toNat → (Piece.char (Char.ofNat n), rest) = (.char c, rest) := by
    rintro n rfl
    rw [Char.ofNat_toNat]
  fun_cases String.utf8EncodeChar c with
  | case1 v h =>
    have ha := byte v (by omega)
    refine ⟨_, _, rfl, ?_⟩
    rw [List.nil_append, next_eq, if_pos (by omega), ha]
    exact back rfl
  | case2 v h h' =>
    have hv : v = c.toNat := rfl
    have ha := byte (v / 64 % 32 + 192) (by omega)
    have hb := byte (v % 64 + 128) (by omega)
    have hs : isSecond (UInt8.ofNat (v / 64 % 32 + 192)) (UInt8.ofNat (v % 64 + 128)) = true := by
      rw [isSecond_iff, ha, hb]
      omega
    refine ⟨_, _, rfl, ?_⟩
    rw [List.cons_append, List.nil_append, next_two (by omega) (by omega) hs]
    refine back ?_
    rw [low, ha, hb]
    omega
  | case3 v h h' h'' =>
    have hv : v = c.toNat := rfl
    have ha := byte (v / 4096 % 16 + 224) (by omega)
    have hb := byte (v / 64 % 64 + 128) (by omega)
    have hc := byte (v % 64 + 128) (by omega)
    have hs : isSecond (UInt8.ofNat (v / 4096 % 16 + 224)) (UInt8.ofNat (v / 64 % 64 + 128)) =
        true := by
      rw [isSecond_iff, ha, hb]
      omega
    have ht : isContinuation (UInt8.ofNat (v % 64 + 128)) = true := by
      rw [isContinuation_iff, hc]
      omega
    refine ⟨_, _, rfl, ?_⟩
    rw [List.cons_append, List.cons_append, List.nil_append, next_three (by omega) (by omega) hs ht]
    refine back ?_
    rw [low, low, ha, hb, hc]
    omega
  | case4 v h h' h'' =>
    have hv : v = c.toNat := rfl
    have ha := byte (v / 262144 % 8 + 240) (by omega)
    have hb := byte (v / 4096 % 64 + 128) (by omega)
    have hc := byte (v / 64 % 64 + 128) (by omega)
    have hd := byte (v % 64 + 128) (by omega)
    have hs : isSecond (UInt8.ofNat (v / 262144 % 8 + 240)) (UInt8.ofNat (v / 4096 % 64 + 128)) =
        true := by
      rw [isSecond_iff, ha, hb]
      omega
    have ht : isContinuation (UInt8.ofNat (v / 64 % 64 + 128)) = true := by
      rw [isContinuation_iff, hc]
      omega
    have hu : isContinuation (UInt8.ofNat (v % 64 + 128)) = true := by
      rw [isContinuation_iff, hd]
      omega
    refine ⟨_, _, rfl, ?_⟩
    rw [List.cons_append, List.cons_append, List.cons_append, List.nil_append,
      next_four (by omega) (by omega) hs ht hu]
    refine back ?_
    rw [low, low, low, ha, hb, hc, hd]
    omega

theorem pieces_flatMap (cs : List Char) :
    pieces (cs.flatMap String.utf8EncodeChar) = cs.map Piece.char := by
  induction cs with
  | nil => rw [List.flatMap_nil, pieces, List.map_nil]
  | cons c cs ih =>
    obtain ⟨a, more, hc, hn⟩ := next_utf8EncodeChar c (cs.flatMap String.utf8EncodeChar)
    rw [List.flatMap_cons, hc, List.cons_append, pieces, hn, ih, List.map_cons]

theorem firstRefused_map_char (offset : Nat) (cs : List Char) :
    firstRefused offset (cs.map Piece.char) = none := by
  induction cs generalizing offset with
  | nil => rfl
  | cons c cs ih => exact ih _

theorem lossy_encode (s : String) : lossy (encode s) = s := by
  have hid : Piece.toChar ∘ Piece.char = id := rfl
  rw [lossy, encode_eq_flatMap, pieces_flatMap, List.map_map, hid, List.map_id, String.ofList_toList]

/-- Strict reading gives back what was written. -/
theorem decode_encode (s : String) : decode (encode s) = .ok s := by
  have hn : firstRefused 0 (pieces (encode s)) = none := by
    rw [encode_eq_flatMap, pieces_flatMap, firstRefused_map_char]
  rw [decode, hn, lossy_encode]

theorem utf8EncodeChar_ofNat {n : Nat} (h : n.isValidChar) :
    String.utf8EncodeChar (Char.ofNat n) =
      if n ≤ 127 then [UInt8.ofNat n]
      else if n ≤ 2047 then [UInt8.ofNat (n / 64 % 32 + 192), UInt8.ofNat (n % 64 + 128)]
      else if n ≤ 65535 then [UInt8.ofNat (n / 4096 % 16 + 224), UInt8.ofNat (n / 64 % 64 + 128),
        UInt8.ofNat (n % 64 + 128)]
      else [UInt8.ofNat (n / 262144 % 8 + 240), UInt8.ofNat (n / 4096 % 64 + 128),
        UInt8.ofNat (n / 64 % 64 + 128), UInt8.ofNat (n % 64 + 128)] := by
  have hn : (Char.ofNat n).val.toNat = n := by
    rw [Char.ofNat, dif_pos h]
    rfl
  rw [String.utf8EncodeChar, hn]

theorem utf8EncodeChar_two (h : 194 ≤ a.toNat) (h' : a.toNat < 224) (hb : isSecond a b = true) :
    String.utf8EncodeChar (Char.ofNat (a.toNat % 32 * 64 + low b)) = [a, b] := by
  rw [isSecond_iff] at hb
  have hlow : low b = b.toNat % 64 := rfl
  obtain ⟨n, hn⟩ : ∃ n, n = a.toNat % 32 * 64 + low b := ⟨_, rfl⟩
  have hfirst : n / 64 % 32 + 192 = a.toNat := by omega
  have hsecond : n % 64 + 128 = b.toNat := by omega
  rw [← hn, utf8EncodeChar_ofNat (.inl (by omega)), if_neg (by omega), if_pos (by omega), hfirst,
    hsecond, UInt8.ofNat_toNat, UInt8.ofNat_toNat]

theorem utf8EncodeChar_three (h : 224 ≤ a.toNat) (h' : a.toNat < 240)
    (hb : isSecond a b = true) (hc : isContinuation c = true) :
    String.utf8EncodeChar (Char.ofNat (a.toNat % 16 * 4096 + low b * 64 + low c)) = [a, b, c] := by
  rw [isSecond_iff] at hb
  rw [isContinuation_iff] at hc
  have hlow : low b = b.toNat % 64 := rfl
  have hlow' : low c = c.toNat % 64 := rfl
  obtain ⟨n, hn⟩ : ∃ n, n = a.toNat % 16 * 4096 + low b * 64 + low c := ⟨_, rfl⟩
  have hvalid : n.isValidChar := by
    rw [Nat.isValidChar]
    omega
  have hfirst : n / 4096 % 16 + 224 = a.toNat := by omega
  have hsecond : n / 64 % 64 + 128 = b.toNat := by omega
  have hthird : n % 64 + 128 = c.toNat := by omega
  rw [← hn, utf8EncodeChar_ofNat hvalid, if_neg (by omega), if_neg (by omega), if_pos (by omega),
    hfirst, hsecond, hthird]
  simp only [UInt8.ofNat_toNat]

theorem utf8EncodeChar_four (h : 240 ≤ a.toNat) (h' : a.toNat < 245)
    (hb : isSecond a b = true) (hc : isContinuation c = true) (hd : isContinuation d = true) :
    String.utf8EncodeChar (Char.ofNat
      (a.toNat % 8 * 262144 + low b * 4096 + low c * 64 + low d)) = [a, b, c, d] := by
  rw [isSecond_iff] at hb
  rw [isContinuation_iff] at hc hd
  have hlow : low b = b.toNat % 64 := rfl
  have hlow' : low c = c.toNat % 64 := rfl
  have hlow'' : low d = d.toNat % 64 := rfl
  obtain ⟨n, hn⟩ : ∃ n, n = a.toNat % 8 * 262144 + low b * 4096 + low c * 64 + low d := ⟨_, rfl⟩
  have hvalid : n.isValidChar := by
    rw [Nat.isValidChar]
    omega
  have hfirst : n / 262144 % 8 + 240 = a.toNat := by omega
  have hsecond : n / 4096 % 64 + 128 = b.toNat := by omega
  have hthird : n / 64 % 64 + 128 = c.toNat := by omega
  have hfourth : n % 64 + 128 = d.toNat := by omega
  rw [← hn, utf8EncodeChar_ofNat hvalid, if_neg (by omega), if_neg (by omega), if_neg (by omega),
    hfirst, hsecond, hthird, hfourth]
  simp only [UInt8.ofNat_toNat]

theorem eq_append_of_readTwo {x : Char} {after : List UInt8} (h : 194 ≤ a.toNat)
    (h' : a.toNat < 224) (hr : readTwo a rest = (.char x, after)) :
    a :: rest = String.utf8EncodeChar x ++ after := by
  revert hr
  fun_cases readTwo a rest with
  | case2 b rest hb =>
    rintro ⟨⟩
    rw [utf8EncodeChar_two h h' hb]
    rfl
  | case1 | case3 => rintro ⟨⟩

theorem eq_append_of_readThree {x : Char} {after : List UInt8} (h : 224 ≤ a.toNat)
    (h' : a.toNat < 240) (hr : readThree a rest = (.char x, after)) :
    a :: rest = String.utf8EncodeChar x ++ after := by
  revert hr
  fun_cases readThree a rest with
  | case3 b hb c rest hc =>
    rintro ⟨⟩
    rw [utf8EncodeChar_three h h' hb hc]
    rfl
  | case1 | case2 | case4 | case5 => rintro ⟨⟩

theorem eq_append_of_readFour {x : Char} {after : List UInt8} (h : 240 ≤ a.toNat)
    (h' : a.toNat < 245) (hr : readFour a rest = (.char x, after)) :
    a :: rest = String.utf8EncodeChar x ++ after := by
  revert hr
  fun_cases readFour a rest with
  | case4 b hb c hc d rest hd =>
    rintro ⟨⟩
    rw [utf8EncodeChar_four h h' hb hc hd]
    rfl
  | case1 | case2 | case3 | case5 | case6 | case7 => rintro ⟨⟩

/-- A piece that is read as a character has the bytes of that character. -/
theorem eq_append_of_next {x : Char} {after : List UInt8} (h : next a rest = (.char x, after)) :
    a :: rest = String.utf8EncodeChar x ++ after := by
  rw [next_eq] at h
  by_cases h128 : a.toNat < 128
  · rw [if_pos h128] at h
    cases h
    rw [utf8EncodeChar_ofNat (.inl (by omega)), if_pos (by omega), UInt8.ofNat_toNat]
    rfl
  rw [if_neg h128] at h
  by_cases h194 : a.toNat < 194
  · rw [if_pos h194] at h
    cases h
  rw [if_neg h194] at h
  by_cases h224 : a.toNat < 224
  · rw [if_pos h224] at h
    exact eq_append_of_readTwo (by omega) h224 h
  rw [if_neg h224] at h
  by_cases h240 : a.toNat < 240
  · rw [if_pos h240] at h
    exact eq_append_of_readThree (by omega) h240 h
  rw [if_neg h240] at h
  by_cases h245 : a.toNat < 245
  · rw [if_pos h245] at h
    exact eq_append_of_readFour (by omega) h245 h
  rw [if_neg h245] at h
  cases h

/-- Bytes of which nothing is refused are those of the characters read. -/
theorem eq_flatMap_of_firstRefused {bytes : List UInt8} {offset : Nat}
    (h : firstRefused offset (pieces bytes) = none) :
    bytes = ((pieces bytes).map Piece.toChar).flatMap String.utf8EncodeChar := by
  fun_induction pieces bytes generalizing offset with
  | case1 => rfl
  | case2 a rest ih =>
    cases hn : (next a rest).1 with
    | char x =>
      rw [hn] at h
      rw [List.map_cons, List.flatMap_cons, ← ih h]
      exact eq_append_of_next (Prod.ext hn rfl)
    | refused _ _ _ =>
      rw [hn] at h
      cases h

theorem decode_eq_ok_iff {bytes : List UInt8} {s : String} :
    decode bytes = .ok s ↔ bytes = encode s := by
  constructor
  · intro h
    unfold decode at h
    split at h
    · cases h
    · next hn =>
      cases h
      rw [encode_eq_flatMap, lossy, String.toList_ofList]
      exact eq_flatMap_of_firstRefused hn
  · rintro rfl
    exact decode_encode s

end Utf8

theorem decoded_encode (s : String) : decoded (Utf8.encode s) = .ok s := by
  rw [decoded, Utf8.decode_encode]
  rfl

theorem decoded_eq_ok_iff {bytes : List UInt8} {s : String} :
    decoded bytes = .ok s ↔ bytes = Utf8.encode s := by
  rw [← Utf8.decode_eq_ok_iff, decoded]
  cases Utf8.decode bytes with
  | error e =>
    constructor <;>
    · intro h
      cases h
  | ok t =>
    constructor <;>
    · intro h
      cases h
      rfl

theorem decoded_eq_error_iff {bytes : List UInt8} {e : Failure} :
    decoded bytes = .error e ↔ ∃ e', Utf8.decode bytes = .error e' ∧ e = .undecodable e' := by
  rw [decoded]
  cases Utf8.decode bytes with
  | error e' =>
    constructor
    · intro h
      cases h
      exact ⟨e', rfl, rfl⟩
    · rintro ⟨_, ⟨⟩, rfl⟩
      rfl
  | ok t =>
    constructor
    · intro h
      cases h
    · rintro ⟨_, ⟨⟩, _⟩

end RustMetrics
