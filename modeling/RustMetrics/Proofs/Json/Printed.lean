import RustMetrics.Json.Printer
import RustMetrics.Proofs.Json.Grammar

/-! What is printed is a text of the grammar and has only ASCII characters. A value is printed
before whatever follows it, so the text of a value can be looked at alone; the items of an
array and the fields of an object are each led by the line they start. -/

namespace RustMetrics.Json

/-! ### Strings -/

theorem spellsUnit_hex {n : Nat} (h : n < 0x10000) : SpellsUnit n (Text.hex 4 n) := by
  have hdigit : ∀ m, SpellsDigit (m % 16) (Nat.digitChar (m % 16)) := fun m =>
    ⟨Nat.mod_lt _ (by decide), .inl rfl⟩
  have hunit := SpellsUnit.digits (hdigit (n / 16 / 16 / 16)) (hdigit (n / 16 / 16))
    (hdigit (n / 16)) (hdigit n)
  have hvalue : ((n / 16 / 16 / 16 % 16 * 16 + n / 16 / 16 % 16) * 16 + n / 16 % 16) * 16 + n % 16 =
      n := by omega
  rw [hvalue] at hunit
  exact hunit

theorem eq_ofNat {c : Char} {n : Nat} (h : c.toNat = n) : c = Char.ofNat n := by
  rw [← h, Char.ofNat_toNat]

/-- Every character is printed in one of the ways to spell it. -/
theorem spellsChar_escaped (c : Char) : SpellsChar c (escaped c) := by
  have hvalid : c.toNat < 0xD800 ∨ 0xDFFF < c.toNat ∧ c.toNat < 0x110000 := c.valid
  fun_cases escaped c with
  | case1 h =>
    rcases (by simpa using h : c = '"' ∨ c = '\\') with rfl | rfl
    · exact .short (by decide)
    · exact .short (by decide)
  | case2 _ h | case3 _ _ h | case4 _ _ _ h =>
    rw [eq_of_beq h]
    exact .short (by decide)
  | case5 _ _ _ _ h | case6 _ _ _ _ _ h =>
    rw [eq_ofNat (eq_of_beq h)]
    exact .short (by decide)
  | case7 hquote _ _ _ _ _ h =>
    simp only [Bool.or_eq_true, beq_iff_eq, not_or] at hquote
    simp only [Bool.and_eq_true, decide_eq_true_eq] at h
    exact .plain h.1 hquote.1 hquote.2
  | case8 _ _ _ _ _ _ _ h => exact .unit (spellsUnit_hex h)
  | case9 _ _ _ _ _ _ _ h =>
    exact .pair (spellsUnit_hex (by omega)) (spellsUnit_hex (by omega)) (by omega) (by omega)
      (by omega)

theorem spellsChars_flatMap (cs : List Char) : SpellsChars cs (cs.flatMap escaped) := by
  induction cs with
  | nil => exact .nil
  | cons c cs ih => exact .cons (spellsChar_escaped c) ih

theorem spellsString_stringChars (s : String) : SpellsString s (stringChars s) :=
  .quoted (spellsChars_flatMap s.toList)

/-! ### Numbers -/

theorem eq_zero_of_head?_toDigits {n : Nat} (h : (Nat.toDigits 10 n).head? = some '0') : n = 0 := by
  induction n using Nat.strongRecOn with
  | ind n ih =>
    by_cases hn : n < 10
    · rw [Nat.toDigits_of_lt_base hn] at h
      simpa using h
    · obtain ⟨d, more, hd⟩ := List.exists_cons_of_ne_nil (Nat.toDigits_ne_nil (n := n / 10) (b := 10))
      rw [Nat.toDigits_of_base_le (by decide) (by omega), hd] at h
      have hzero := ih (n / 10) (by omega) (by rw [hd]; exact h)
      omega

theorem spellsNat_toDigits (n : Nat) : SpellsNat n (Nat.toDigits 10 n) where
  nonempty := Nat.toDigits_ne_nil
  digits _ hd := Nat.isDigit_of_mem_toDigits (by decide) (by decide) hd
  noZero h := by rw [eq_zero_of_head?_toDigits h, Nat.toDigits_zero]
  value := Nat.ofDigitChars_toDigits (by decide) (by decide)

theorem spellsInt_toString (n : Int) : SpellsInt n (toString n).toList := by
  cases n with
  | ofNat n =>
    have htext : (toString (Int.ofNat n)).toList = Nat.toDigits 10 n := Nat.toList_repr
    rw [htext]
    exact .natural (spellsNat_toDigits n)
  | negSucc n =>
    have htext : (toString (Int.negSucc n)).toList = '-' :: Nat.toDigits 10 (n + 1) := by
      rw [← Nat.toList_repr]
      exact String.toList_append
    rw [htext]
    exact .negative (spellsNat_toDigits (n + 1))

/-! ### Values -/

mutual

theorem write_append (depth : Nat) (rest : List Char) :
    (j : Json) → write depth rest j = write depth [] j ++ rest
  | .null | .bool true | .bool false | .arr [] | .obj [] => rfl
  | .int n => by simp [write]
  | .str s => by simp [write]
  | .arr (v :: vs) => by
    rw [write, write_append _ _ v, writeItems_append _ _ vs, write,
      write_append _ (writeItems _ _ _) v, writeItems_append _ (newLine depth ++ [']']) vs]
    simp
  | .obj ((k, v) :: fs) => by
    rw [write, write_append _ _ v, writeFields_append _ _ fs, write,
      write_append _ (writeFields _ _ _) v, writeFields_append _ (newLine depth ++ ['\x7d']) fs]
    simp

theorem writeItems_append (depth : Nat) (rest : List Char) :
    (vs : List Json) → writeItems depth rest vs = writeItems depth [] vs ++ rest
  | [] => rfl
  | v :: vs => by
    rw [writeItems, write_append _ _ v, writeItems_append _ _ vs, writeItems,
      write_append _ (writeItems _ _ _) v]
    simp

theorem writeFields_append (depth : Nat) (rest : List Char) :
    (fs : List (String × Json)) → writeFields depth rest fs = writeFields depth [] fs ++ rest
  | [] => rfl
  | (k, v) :: fs => by
    rw [writeFields, write_append _ _ v, writeFields_append _ _ fs, writeFields,
      write_append _ (writeFields _ _ _) v]
    simp

end

theorem blank_newLine (depth : Nat) : Blank (newLine depth) := by
  intro c hc
  rcases List.mem_cons.mp hc with rfl | hc
  · decide
  · rw [List.eq_of_mem_replicate hc]
    decide

theorem blank_nil : Blank [] := by
  simp [Blank]

theorem spellsField_write {before t after : List Char} (hbefore : Blank before) (k : String)
    {v : Json} (hv : Spells v t) (hafter : Blank after) :
    SpellsField (k, v) (before ++ stringChars k ++ ':' :: ' ' :: t ++ after) := by
  have hspace : Blank [' '] := by simp [Blank]
  simpa using SpellsField.named hbefore (spellsString_stringChars k) blank_nil
    (.spaced hspace hv hafter)

mutual

/-- A value is printed as a text that spells it. -/
theorem spells_write (depth : Nat) : (j : Json) → Spells j (write depth [] j)
  | .null => .null
  | .bool true => .bool true
  | .bool false => .bool false
  | .int n => by
    rw [write, List.append_nil]
    exact .int (spellsInt_toString n)
  | .str s => by
    rw [write, List.append_nil]
    exact .str (spellsString_stringChars s)
  | .arr [] => .noItems blank_nil
  | .arr (v :: vs) => by
    have hitems := spellsItems_write (depth + 1) (blank_newLine (depth + 1))
      (spells_write (depth + 1) v) (blank_newLine depth) vs
    rw [write, write_append, writeItems_append]
    simpa using Spells.items hitems
  | .obj [] => .noFields blank_nil
  | .obj ((k, v) :: fs) => by
    have hfields := spellsFields_write (depth + 1) (blank_newLine (depth + 1)) k
      (spells_write (depth + 1) v) (blank_newLine depth) fs
    rw [write, write_append, writeFields_append]
    simpa using Spells.fields hfields

/-- The last blanks of an array belong to its last item, so they wait for the end. -/
theorem spellsItems_write (depth : Nat) {before t after : List Char} {v : Json}
    (hbefore : Blank before) (hv : Spells v t) (hafter : Blank after) :
    (vs : List Json) → SpellsItems (v :: vs) (before ++ t ++ (writeItems depth [] vs ++ after))
  | [] => .last (.spaced hbefore hv hafter)
  | w :: ws => by
    have hmore := spellsItems_write depth (blank_newLine depth) (spells_write depth w) hafter ws
    rw [writeItems, write_append]
    simpa using SpellsItems.more (.spaced hbefore hv blank_nil) hmore

theorem spellsFields_write (depth : Nat) {before t after : List Char} (hbefore : Blank before)
    (k : String) {v : Json} (hv : Spells v t) (hafter : Blank after) :
    (fs : List (String × Json)) → SpellsFields ((k, v) :: fs)
      (before ++ stringChars k ++ ':' :: ' ' :: t ++ (writeFields depth [] fs ++ after))
  | [] => .last (spellsField_write hbefore k hv hafter)
  | (k', w) :: fs => by
    have hmore := spellsFields_write depth (blank_newLine depth) k' (spells_write depth w) hafter fs
    rw [writeFields, write_append]
    simpa using SpellsFields.more (spellsField_write hbefore k hv blank_nil) hmore

end

/-! ### Characters -/

/-- Only ASCII characters. -/
def Ascii (cs : List Char) : Prop := ∀ c ∈ cs, c.toNat < 0x80

@[simp] theorem ascii_nil : Ascii [] := by
  simp [Ascii]

@[simp] theorem ascii_cons {c : Char} {cs : List Char} :
    Ascii (c :: cs) ↔ c.toNat < 0x80 ∧ Ascii cs := List.forall_mem_cons

@[simp] theorem ascii_append {cs ds : List Char} : Ascii (cs ++ ds) ↔ Ascii cs ∧ Ascii ds :=
  List.forall_mem_append

theorem ascii_hex (width n : Nat) : Ascii (Text.hex width n) := by
  have hdigit : ∀ d < 16, (Nat.digitChar d).toNat < 0x80 := by decide
  induction width generalizing n with
  | zero => exact ascii_nil
  | succ width ih => simp [Text.hex, ih, hdigit _ (Nat.mod_lt n (by decide))]

theorem ascii_unitEscape (n : Nat) : Ascii (unitEscape n) := by
  simp [unitEscape, ascii_hex]

theorem ascii_escaped (c : Char) : Ascii (escaped c) := by
  fun_cases escaped c with
  | case1 h =>
    rcases (by simpa using h : c = '"' ∨ c = '\\') with rfl | rfl
    · simp
    · simp
  | case2 | case3 | case4 | case5 | case6 => simp
  | case7 _ _ _ _ _ _ h =>
    simp only [Bool.and_eq_true, decide_eq_true_eq] at h
    simp only [ascii_cons, ascii_nil, and_true]
    omega
  | case8 => exact ascii_unitEscape _
  | case9 => simp [ascii_unitEscape]

@[simp] theorem ascii_stringChars (s : String) : Ascii (stringChars s) := by
  have hbody : Ascii (s.toList.flatMap escaped) := by
    intro c hc
    obtain ⟨d, _, hc⟩ := List.mem_flatMap.mp hc
    exact ascii_escaped d c hc
  simp [stringChars, hbody]

theorem SpellsNat.ascii {n : Nat} {ds : List Char} (h : SpellsNat n ds) : Ascii ds := by
  intro c hc
  have hdigit := h.digits c hc
  simp only [Char.isDigit, Bool.and_eq_true, decide_eq_true_eq, UInt32.le_iff_toNat_le] at hdigit
  exact Nat.lt_of_le_of_lt hdigit.2 (by decide)

theorem SpellsInt.ascii {n : Int} {t : List Char} (h : SpellsInt n t) : Ascii t := by
  cases h with
  | natural h => exact h.ascii
  | negative h => exact ascii_cons.mpr ⟨by decide, h.ascii⟩

@[simp] theorem ascii_newLine (depth : Nat) : Ascii (newLine depth) := by
  simp [newLine, Ascii]

mutual

/-- A value is printed with ASCII characters only. -/
theorem ascii_write (depth : Nat) {rest : List Char} (h : Ascii rest) :
    (j : Json) → Ascii (write depth rest j)
  | .null => by simp [write, h]
  | .bool true => by simp [write, h]
  | .bool false => by simp [write, h]
  | .int n => ascii_append.mpr ⟨(spellsInt_toString n).ascii, h⟩
  | .str s => by simp [write, h]
  | .arr [] => by simp [write, h]
  | .arr (v :: vs) => by
    have hclose : Ascii (newLine depth ++ ']' :: rest) := by simp [h]
    have hvs := ascii_write (depth + 1) (ascii_writeItems (depth + 1) hclose vs) v
    simp [write, hvs]
  | .obj [] => by simp [write, h]
  | .obj ((k, v) :: fs) => by
    have hclose : Ascii (newLine depth ++ '\x7d' :: rest) := by simp [h]
    have hfs := ascii_write (depth + 1) (ascii_writeFields (depth + 1) hclose fs) v
    simp [write, hfs]

theorem ascii_writeItems (depth : Nat) {rest : List Char} (h : Ascii rest) :
    (vs : List Json) → Ascii (writeItems depth rest vs)
  | [] => h
  | v :: vs => by simp [writeItems, ascii_write depth (ascii_writeItems depth h vs) v]

theorem ascii_writeFields (depth : Nat) {rest : List Char} (h : Ascii rest) :
    (fs : List (String × Json)) → Ascii (writeFields depth rest fs)
  | [] => h
  | (k, v) :: fs => by simp [writeFields, ascii_write depth (ascii_writeFields depth h fs) v]

end

/-! ### Texts -/

theorem spellsText_render (j : Json) : SpellsText j j.render.toList := by
  rw [render, String.toList_ofList]
  simpa using SpellsText.spaced blank_nil (spells_write 0 j) blank_nil

theorem ascii_render (j : Json) : Ascii j.render.toList := by
  rw [render, String.toList_ofList]
  exact ascii_write 0 ascii_nil j

theorem parse?_render (j : Json) : parse? j.render = some j := (spellsText_render j).parse?_eq

/-- A printed text spells the document that it was printed from and no other. -/
theorem spellsText_render_iff {j j' : Json} : SpellsText j' j.render.toList ↔ j' = j := by
  constructor
  · intro h
    have hread := h.parse?_eq
    rw [parse?_render] at hread
    exact (Option.some.inj hread).symm
  · intro h
    rw [h]
    exact spellsText_render j

end RustMetrics.Json
