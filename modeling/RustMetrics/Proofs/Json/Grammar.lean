import RustMetrics.Json.Reader

/-! The grammar of JSON texts, and that reading takes every text of it for the document that
it spells. The rules say which characters a value may be written with, in all the ways that
there are: blanks, escapes, pairs of units, digits of either case. Numbers are
integers, as documents have no others. Since the reader gives one answer, a text spells at
most one document. -/

namespace RustMetrics.Json

/-- Blanks between the parts of a text. -/
def Blank (ws : List Char) : Prop := ∀ c ∈ ws, c ∈ [' ', '\n', '\r', '\t']

/-- A hexadecimal digit, in either case. -/
def SpellsDigit (d : Nat) (c : Char) : Prop :=
  d < 16 ∧ (c = Nat.digitChar d ∨ c = (Nat.digitChar d).toUpper)

/-- Four hexadecimal digits, highest first. -/
inductive SpellsUnit : Nat → List Char → Prop
  | digits {p q r s : Nat} {a b c d : Char} : SpellsDigit p a → SpellsDigit q b →
      SpellsDigit r c → SpellsDigit s d →
      SpellsUnit (((p * 16 + q) * 16 + r) * 16 + s) [a, b, c, d]

/-- The letters after a backslash and what they stand for. -/
def shortEscapes : List (Char × Char) :=
  [('"', '"'), ('\\', '\\'), ('/', '/'), ('n', '\n'), ('r', '\r'), ('t', '\t'),
    ('f', Char.ofNat 0x0C), ('b', Char.ofNat 0x08)]

/-- A character in a string: as itself, by a letter, by its unit, or by its two units. -/
inductive SpellsChar : Char → List Char → Prop
  | plain {c : Char} : 0x20 ≤ c.toNat → c ≠ '"' → c ≠ '\\' → SpellsChar c [c]
  | short {e c : Char} : (e, c) ∈ shortEscapes → SpellsChar c ['\\', e]
  | unit {c : Char} {ds : List Char} : SpellsUnit c.toNat ds → SpellsChar c ('\\' :: 'u' :: ds)
  | pair {c : Char} {u v : Nat} {ds es : List Char} : SpellsUnit u ds → SpellsUnit v es →
      0xD800 ≤ u ∧ u < 0xDC00 → 0xDC00 ≤ v ∧ v < 0xE000 →
      c.toNat = 0x10000 + (u - 0xD800) * 0x400 + (v - 0xDC00) →
      SpellsChar c ('\\' :: 'u' :: ds ++ '\\' :: 'u' :: es)

inductive SpellsChars : List Char → List Char → Prop
  | nil : SpellsChars [] []
  | cons {c : Char} {cs t ts : List Char} :
      SpellsChar c t → SpellsChars cs ts → SpellsChars (c :: cs) (t ++ ts)

inductive SpellsString : String → List Char → Prop
  | quoted {s : String} {t : List Char} :
      SpellsChars s.toList t → SpellsString s ('"' :: t ++ ['"'])

/-- Decimal digits; zero only stands first if it stands alone. -/
structure SpellsNat (n : Nat) (ds : List Char) : Prop where
  nonempty : ds ≠ []
  digits : ∀ d ∈ ds, d.isDigit = true
  noZero : ds.head? = some '0' → ds = ['0']
  value : Nat.ofDigitChars 10 ds 0 = n

inductive SpellsInt : Int → List Char → Prop
  | natural {n : Nat} {ds : List Char} : SpellsNat n ds → SpellsInt n ds
  | negative {n : Nat} {ds : List Char} : SpellsNat n ds → SpellsInt (-n) ('-' :: ds)

mutual

/-- A value, without blanks around it. -/
inductive Spells : Json → List Char → Prop
  | null : Spells .null "null".toList
  | bool (b : Bool) : Spells (.bool b) (toString b).toList
  | int {n : Int} {t : List Char} : SpellsInt n t → Spells (.int n) t
  | str {s : String} {t : List Char} : SpellsString s t → Spells (.str s) t
  | noItems {ws : List Char} : Blank ws → Spells (.arr []) ('[' :: ws ++ [']'])
  | items {vs : List Json} {t : List Char} :
      SpellsItems vs t → Spells (.arr vs) ('[' :: t ++ [']'])
  | noFields {ws : List Char} : Blank ws → Spells (.obj []) ('\x7b' :: ws ++ ['\x7d'])
  | fields {fs : List (String × Json)} {t : List Char} :
      SpellsFields fs t → Spells (.obj fs) ('\x7b' :: t ++ ['\x7d'])

/-- A value with blanks around it: a whole text, or one of several. -/
inductive SpellsText : Json → List Char → Prop
  | spaced {v : Json} {before t after : List Char} : Blank before → Spells v t → Blank after →
      SpellsText v (before ++ t ++ after)

/-- One or more items. -/
inductive SpellsItems : List Json → List Char → Prop
  | last {v : Json} {t : List Char} : SpellsText v t → SpellsItems [v] t
  | more {v : Json} {vs : List Json} {t ts : List Char} :
      SpellsText v t → SpellsItems vs ts → SpellsItems (v :: vs) (t ++ ',' :: ts)

inductive SpellsField : String × Json → List Char → Prop
  | named {k : String} {v : Json} {before key after t : List Char} :
      Blank before → SpellsString k key → Blank after → SpellsText v t →
      SpellsField (k, v) (before ++ key ++ after ++ ':' :: t)

/-- One or more fields. -/
inductive SpellsFields : List (String × Json) → List Char → Prop
  | last {f : String × Json} {t : List Char} : SpellsField f t → SpellsFields [f] t
  | more {f : String × Json} {fs : List (String × Json)} {t ts : List Char} :
      SpellsField f t → SpellsFields fs ts → SpellsFields (f :: fs) (t ++ ',' :: ts)

end

/-! ### Blanks -/

theorem isSpace_iff {c : Char} : isSpace c = true ↔ c ∈ [' ', '\n', '\r', '\t'] := by
  simp [isSpace, or_assoc]

variable {ws rest : List Char}

theorem skip_append (h : Blank ws) : skip (ws ++ rest) = skip rest := by
  rw [skip, List.dropWhile_append_of_pos fun c hc => isSpace_iff.mpr (h c hc), skip]

theorem skip_of_blank (h : Blank ws) : skip ws = [] := by
  rw [← List.append_nil ws, skip_append h]
  rfl

theorem skip_cons {c : Char} (h : isSpace c = false) : skip (c :: rest) = c :: rest := by
  rw [skip, List.dropWhile_cons_of_neg (by simp [h])]

theorem skip_skip (cs : List Char) : skip (skip cs) = skip cs := by
  induction cs with
  | nil => rfl
  | cons c cs ih =>
    cases h : isSpace c with
    | true =>
      have hcons : skip (c :: cs) = skip cs := List.dropWhile_cons_of_pos h
      rw [hcons, ih]
    | false => rw [skip_cons h, skip_cons h]

/-! ### Strings -/

theorem SpellsDigit.hexValue?_eq {d : Nat} {c : Char} (h : SpellsDigit d c) :
    hexValue? c = some d := by
  obtain ⟨hd, rfl | rfl⟩ := h
  · revert d
    decide
  · revert d
    decide

theorem SpellsUnit.unit?_eq {n : Nat} {ds : List Char} (h : SpellsUnit n ds) :
    unit? (ds ++ rest) = some (n, rest) := by
  obtain ⟨hp, hq, hr, hs⟩ := h
  simp [unit?, hp.hexValue?_eq, hq.hexValue?_eq, hr.hexValue?_eq, hs.hexValue?_eq]

theorem escape?_unit {c : Char} {ds : List Char} (h : SpellsUnit c.toNat ds) :
    escape? (ds ++ rest) = some (c, rest) := by
  have hvalid : c.toNat < 0xD800 ∨ 0xDFFF < c.toNat ∧ c.toNat < 0x110000 := c.valid
  have hwhole : (decide (c.toNat < 0xD800) || decide (0xE000 ≤ c.toNat)) = true := by
    simp only [Bool.or_eq_true, decide_eq_true_eq]
    omega
  simp only [escape?, h.unit?_eq, Option.bind_eq_bind, Option.bind_some, hwhole, if_true,
    Char.ofNat_toNat]
  rfl

theorem escape?_pair {c : Char} {u v : Nat} {ds es : List Char} (hd : SpellsUnit u ds)
    (he : SpellsUnit v es) (hu : 0xD800 ≤ u ∧ u < 0xDC00) (hv : 0xDC00 ≤ v ∧ v < 0xE000)
    (hc : c.toNat = 0x10000 + (u - 0xD800) * 0x400 + (v - 0xDC00)) :
    escape? (ds ++ '\\' :: 'u' :: (es ++ rest)) = some (c, rest) := by
  have hwhole : (decide (u < 0xD800) || decide (0xE000 ≤ u)) = false := by
    simp only [Bool.or_eq_false_iff, decide_eq_false_iff_not]
    omega
  have hlow : (decide (0xDC00 ≤ v) && decide (v < 0xE000)) = true := by
    simp only [Bool.and_eq_true, decide_eq_true_eq]
    exact hv
  have hhigh : ¬ 0xDC00 ≤ u := by omega
  simp only [escape?, hd.unit?_eq, he.unit?_eq, Option.bind_eq_bind, Option.bind_some, hwhole,
    Bool.false_eq_true, if_false, hhigh, hlow, if_true, ← hc, Char.ofNat_toNat]
  rfl

theorem chars?_quote (fuel : Nat) : chars? (fuel + 1) ('"' :: rest) = some ([], rest) := rfl

theorem chars?_plain {c : Char} (fuel : Nat) (hc : 0x20 ≤ c.toNat) (hq : c ≠ '"') (hb : c ≠ '\\') :
    chars? (fuel + 1) (c :: rest) = (chars? fuel rest).map fun r => (c :: r.1, r.2) := by
  have hok : ¬ ((decide (c.toNat < 0x20) || c == '\\') = true) := by
    simp only [Bool.or_eq_true, decide_eq_true_eq, beq_iff_eq, not_or]
    exact ⟨by omega, hb⟩
  rw [chars?]
  · rw [if_neg hok]
    cases chars? fuel rest <;> rfl
  · exact hq
  · intro _ h
    exact absurd h hb
  · intro _ _ h
    exact absurd h hb

theorem shortEscape?_eq : ∀ p ∈ shortEscapes, p.1 ≠ 'u' ∧ shortEscape? p.1 = some p.2 := by
  decide

theorem chars?_short {e c : Char} (fuel : Nat) (h : (e, c) ∈ shortEscapes) :
    chars? (fuel + 1) ('\\' :: e :: rest) = (chars? fuel rest).map fun r => (c :: r.1, r.2) := by
  obtain ⟨hne, he⟩ := shortEscape?_eq (e, c) h
  rw [chars?]
  · simp only [he, Option.bind_eq_bind, Option.bind_some]
    cases chars? fuel rest <;> rfl
  · exact hne

theorem chars?_escape {c : Char} {cs : List Char} (fuel : Nat) (h : escape? cs = some (c, rest)) :
    chars? (fuel + 1) ('\\' :: 'u' :: cs) = (chars? fuel rest).map fun r => (c :: r.1, r.2) := by
  simp only [chars?, h, Option.bind_eq_bind, Option.bind_some]
  cases chars? fuel rest <;> rfl

/-- A character is read back whatever it is spelled with. -/
theorem SpellsChar.chars?_eq {c : Char} {t : List Char} (fuel : Nat) (h : SpellsChar c t) :
    chars? (fuel + 1) (t ++ rest) = (chars? fuel rest).map fun r => (c :: r.1, r.2) := by
  cases h with
  | plain hc hq hb => exact chars?_plain fuel hc hq hb
  | short h => exact chars?_short fuel h
  | unit h => exact chars?_escape fuel (escape?_unit h)
  | pair hd he hu hv hc =>
    rw [List.append_assoc]
    exact chars?_escape fuel (escape?_pair hd he hu hv hc)

theorem SpellsChar.length_pos {c : Char} {t : List Char} (h : SpellsChar c t) : 0 < t.length := by
  cases h <;> simp

theorem SpellsChars.chars?_eq {cs t : List Char} {fuel : Nat} (h : SpellsChars cs t)
    (hfuel : t.length < fuel) : chars? fuel (t ++ '"' :: rest) = some (cs, rest) := by
  induction h generalizing fuel with
  | nil =>
    obtain ⟨fuel, rfl⟩ : ∃ k, fuel = k + 1 := ⟨fuel - 1, by omega⟩
    exact chars?_quote fuel
  | cons hc _ ih =>
    have hpos := hc.length_pos
    rw [List.length_append] at hfuel
    obtain ⟨fuel, rfl⟩ : ∃ k, fuel = k + 1 := ⟨fuel - 1, by omega⟩
    rw [List.append_assoc, hc.chars?_eq, ih (by omega)]
    rfl

theorem SpellsString.string?_eq {s : String} {t : List Char} (h : SpellsString s t)
    (rest : List Char) : string? (t ++ rest) = some (s, rest) := by
  obtain ⟨h⟩ := h
  have hfuel : ∀ t : List Char, t.length < ('"' :: (t ++ '"' :: rest)).length := by
    intro t
    rw [List.length_cons, List.length_append]
    omega
  rw [List.append_assoc, List.cons_append, List.singleton_append, string?, h.chars?_eq (hfuel _),
    Option.map_some, String.ofList_toList]

/-! ### Numbers -/

/-- What follows a number does not go on with it. -/
def Ends (rest : List Char) : Prop :=
  ∀ c ∈ rest.head?, c.isDigit = false ∧ c ≠ '.' ∧ c ≠ 'e' ∧ c ≠ 'E'

theorem ends_nil : Ends [] := by
  simp [Ends]

theorem ends_cons {c : Char} (h : c.isDigit = false ∧ c ≠ '.' ∧ c ≠ 'e' ∧ c ≠ 'E') :
    Ends (c :: rest) := by
  simpa [Ends] using h

theorem ends_append (h : Blank ws) (hrest : Ends rest) : Ends (ws ++ rest) := by
  cases ws with
  | nil => exact hrest
  | cons c ws =>
    have hc := h c List.mem_cons_self
    refine ends_cons ?_
    simp only [List.mem_cons, List.not_mem_nil, or_false] at hc
    rcases hc with rfl | rfl | rfl | rfl <;> decide

theorem SpellsNat.takeWhile_eq {n : Nat} {ds : List Char} (h : SpellsNat n ds) (hrest : Ends rest) :
    (ds ++ rest).takeWhile Char.isDigit = ds ∧ (ds ++ rest).dropWhile Char.isDigit = rest := by
  rw [List.takeWhile_append_of_pos h.digits, List.dropWhile_append_of_pos h.digits]
  cases rest with
  | nil => simp
  | cons c rest =>
    have hc : ¬ c.isDigit = true := by simp [(hrest c rfl).1]
    rw [List.takeWhile_cons_of_neg hc, List.dropWhile_cons_of_neg hc, List.append_nil]
    exact ⟨rfl, rfl⟩

theorem SpellsNat.natural?_eq {n : Nat} {ds : List Char} (h : SpellsNat n ds) (hrest : Ends rest) :
    natural? (ds ++ rest) = some (n, rest) := by
  have hvalue : ds.foldl (fun n d => n * 10 + (d.toNat - 48)) 0 = n := by
    rw [← h.value, Nat.ofDigitChars_eq_foldl]
    simp only [Nat.mul_comm]
    rfl
  obtain ⟨htake, hdrop⟩ := h.takeWhile_eq hrest
  simp only [natural?, htake, hdrop]
  split
  · exact absurd rfl h.nonempty
  · exact absurd (h.noZero rfl) (by simp)
  · exact absurd rfl (hrest _ rfl).2.1
  · exact absurd rfl (hrest _ rfl).2.2.1
  · exact absurd rfl (hrest _ rfl).2.2.2
  · rw [hvalue]

theorem SpellsNat.exists_head {n : Nat} {ds : List Char} (h : SpellsNat n ds) :
    ∃ d more, ds = d :: more ∧ d.isDigit = true := by
  cases ds with
  | nil => exact absurd rfl h.nonempty
  | cons d more => exact ⟨d, more, rfl, h.digits d List.mem_cons_self⟩

theorem SpellsInt.integer?_eq {n : Int} {t : List Char} (h : SpellsInt n t) (hrest : Ends rest) :
    integer? (t ++ rest) = some (n, rest) := by
  cases h with
  | natural h =>
    obtain ⟨d, more, rfl, hd⟩ := h.exists_head
    have hne : d ≠ '-' := by
      rintro rfl
      cases hd
    rw [List.cons_append, integer?, ← List.cons_append, h.natural?_eq hrest]
    · rfl
    · intro _ hcons
      exact hne (List.cons.inj hcons).1
  | negative h =>
    rw [List.cons_append, integer?, h.natural?_eq hrest]
    rfl

/-- A number starts with a sign or a digit, and so as no other value does. -/
theorem SpellsInt.exists_head {n : Int} {t : List Char} (h : SpellsInt n t) :
    ∃ c more, t = c :: more ∧ (c = '-' ∨ c.isDigit = true) := by
  cases h with
  | natural h =>
    obtain ⟨d, more, rfl, hd⟩ := h.exists_head
    exact ⟨d, more, rfl, .inr hd⟩
  | negative h => exact ⟨'-', _, rfl, .inl rfl⟩

/-! ### Values -/

theorem value?_skip (fuel : Nat) (cs : List Char) : value? fuel (skip cs) = value? fuel cs := by
  cases fuel with
  | zero => rfl
  | succ fuel => simp only [value?, skip_skip]

theorem items?_skip (fuel : Nat) (cs : List Char) : items? fuel (skip cs) = items? fuel cs := by
  cases fuel with
  | zero => rfl
  | succ fuel => simp only [items?, value?_skip]

theorem fields?_skip (fuel : Nat) (cs : List Char) : fields? fuel (skip cs) = fields? fuel cs := by
  cases fuel with
  | zero => rfl
  | succ fuel => simp only [fields?, skip_skip]

/-- A value starts with a character that is neither a blank nor a closing bracket. -/
theorem Spells.exists_head {v : Json} {t : List Char} (h : Spells v t) :
    ∃ c more, t = c :: more ∧ isSpace c = false ∧ c ≠ ']' := by
  cases h with
  | null => exact ⟨'n', ['u', 'l', 'l'], rfl, rfl, by decide⟩
  | bool b =>
    cases b with
    | true => exact ⟨'t', ['r', 'u', 'e'], rfl, rfl, by decide⟩
    | false => exact ⟨'f', ['a', 'l', 's', 'e'], rfl, rfl, by decide⟩
  | noItems _ | items _ | noFields _ | fields _ => exact ⟨_, _, rfl, rfl, by decide⟩
  | str h =>
    obtain ⟨_⟩ := h
    exact ⟨_, _, rfl, rfl, by decide⟩
  | int h =>
    obtain ⟨c, more, rfl, hc⟩ := h.exists_head
    refine ⟨c, more, rfl, ?_, ?_⟩
    · cases hs : isSpace c with
      | false => rfl
      | true =>
        have hspace := isSpace_iff.mp hs
        simp only [List.mem_cons, List.not_mem_nil, or_false] at hspace
        rcases hspace with rfl | rfl | rfl | rfl <;> exact absurd hc (by decide)
    · rintro rfl
      exact absurd hc (by decide)

theorem Spells.skip_eq {v : Json} {t : List Char} (h : Spells v t) (rest : List Char) :
    skip (t ++ rest) = t ++ rest := by
  obtain ⟨c, more, rfl, hc, _⟩ := h.exists_head
  exact skip_cons hc

theorem value?_int {fuel : Nat} {n : Int} {t : List Char} (h : SpellsInt n t) (hrest : Ends rest) :
    value? (fuel + 1) (t ++ rest) = some (.int n, rest) := by
  have hskip := (Spells.int h).skip_eq rest
  have hint := h.integer?_eq hrest
  obtain ⟨c, more, rfl, hc⟩ := h.exists_head
  rw [List.cons_append] at hskip hint
  simp only [List.cons_append, value?, hskip]
  split
  case h_7 => rw [hint]; rfl
  all_goals
    next hcons =>
      rw [(List.cons.inj hcons).1] at hc
      exact absurd hc (by decide)

/-- With enough steps, a text of the grammar is read as what it spells, whatever follows. -/
structure Reads (fuel : Nat) : Prop where
  value : ∀ {v : Json} {t rest : List Char}, Spells v t → t.length ≤ fuel → Ends rest →
    value? fuel (t ++ rest) = some (v, rest)
  items : ∀ {vs : List Json} {t rest : List Char}, SpellsItems vs t → t.length < fuel →
    items? fuel (t ++ ']' :: rest) = some (vs, rest)
  fields : ∀ {fs : List (String × Json)} {t rest : List Char}, SpellsFields fs t →
    t.length < fuel → fields? fuel (t ++ '\x7d' :: rest) = some (fs, rest)

variable {fuel : Nat}

theorem Reads.text {v : Json} {t : List Char} (h : Reads fuel) (ht : SpellsText v t)
    (hfuel : t.length ≤ fuel) (hrest : Ends rest) :
    ∃ after, Blank after ∧ value? fuel (t ++ rest) = some (v, after ++ rest) := by
  obtain @⟨_, before, t, after, hbefore, hv, hafter⟩ := ht
  refine ⟨after, hafter, ?_⟩
  simp only [List.length_append] at hfuel
  rw [List.append_assoc, List.append_assoc, ← value?_skip, skip_append hbefore, value?_skip]
  exact h.value hv (by omega) (ends_append hafter hrest)

theorem SpellsText.skip_ne {v : Json} {t : List Char} (h : SpellsText v t) (rest x : List Char) :
    skip (t ++ rest) ≠ ']' :: x := by
  obtain @⟨_, before, t, after, hbefore, hv, _⟩ := h
  obtain ⟨c, more, rfl, hc, hne⟩ := hv.exists_head
  rw [List.append_assoc, List.append_assoc, skip_append hbefore, List.cons_append, skip_cons hc]
  intro heq
  exact hne (List.cons.inj heq).1

theorem SpellsItems.skip_ne {vs : List Json} {t : List Char} (h : SpellsItems vs t)
    (rest x : List Char) : skip (t ++ rest) ≠ ']' :: x := by
  cases h with
  | last ht => exact ht.skip_ne rest x
  | more ht _ =>
    rw [List.append_assoc]
    exact ht.skip_ne _ x

theorem SpellsField.skip_ne {f : String × Json} {t : List Char} (h : SpellsField f t)
    (rest x : List Char) : skip (t ++ rest) ≠ '\x7d' :: x := by
  obtain ⟨hbefore, hkey, _, _⟩ := h
  obtain ⟨_⟩ := hkey
  simp only [List.append_assoc, List.cons_append, skip_append hbefore]
  exact fun heq => absurd (List.cons.inj heq).1 (by decide)

theorem SpellsFields.skip_ne {fs : List (String × Json)} {t : List Char} (h : SpellsFields fs t)
    (rest x : List Char) : skip (t ++ rest) ≠ '\x7d' :: x := by
  cases h with
  | last hf => exact hf.skip_ne rest x
  | more hf _ =>
    rw [List.append_assoc]
    exact hf.skip_ne _ x

/-- The key of a field is read first, and its value stands after the colon. -/
theorem SpellsField.exists_value {k : String} {v : Json} {t : List Char}
    (h : SpellsField (k, v) t) (rest : List Char) :
    ∃ after t', Blank after ∧ SpellsText v t' ∧ t'.length ≤ t.length ∧
      string? (skip (t ++ rest)) = some (k, after ++ ':' :: (t' ++ rest)) := by
  obtain @⟨_, _, before, key, after, t', hbefore, hkey, hafter, hv⟩ := h
  have hstart : skip (key ++ (after ++ ':' :: (t' ++ rest))) =
      key ++ (after ++ ':' :: (t' ++ rest)) := (Spells.str hkey).skip_eq _
  refine ⟨after, t', hafter, hv, ?_, ?_⟩
  · simp only [List.length_append, List.length_cons]
    omega
  · simp only [List.append_assoc, List.cons_append, skip_append hbefore, hstart,
      hkey.string?_eq]

theorem Reads.value_succ (h : Reads fuel) {v : Json} {t rest : List Char} (hv : Spells v t)
    (hfuel : t.length ≤ fuel + 1) (hrest : Ends rest) :
    value? (fuel + 1) (t ++ rest) = some (v, rest) := by
  have hskip := hv.skip_eq rest
  cases hv with
  | null => rfl
  | bool b => cases b <;> rfl
  | int h => exact value?_int h hrest
  | str hs =>
    have hread := hs.string?_eq rest
    obtain ⟨_⟩ := hs
    rw [List.append_assoc, List.cons_append] at hskip hread ⊢
    simp only [value?, hskip, hread, Option.map_some]
  | @noItems ws hws =>
    have hclose : skip (ws ++ ']' :: rest) = ']' :: rest := (skip_append hws).trans rfl
    rw [List.append_assoc, List.cons_append, List.singleton_append] at hskip ⊢
    simp only [value?, hskip, hclose]
  | @items vs t hvs =>
    have hread : items? fuel (t ++ ']' :: rest) = some (vs, rest) := by
      refine h.items hvs ?_
      simp only [List.length_append, List.length_cons, List.length_nil] at hfuel
      omega
    rw [List.append_assoc, List.cons_append, List.singleton_append] at hskip ⊢
    simp only [value?, hskip]
    split
    · next heq => exact absurd heq (hvs.skip_ne _ _)
    · rw [items?_skip, hread]
      rfl
  | @noFields ws hws =>
    have hclose : skip (ws ++ '\x7d' :: rest) = '\x7d' :: rest := (skip_append hws).trans rfl
    rw [List.append_assoc, List.cons_append, List.singleton_append] at hskip ⊢
    simp only [value?, hskip, hclose]
  | @fields fs t hfs =>
    have hread : fields? fuel (t ++ '\x7d' :: rest) = some (fs, rest) := by
      refine h.fields hfs ?_
      simp only [List.length_append, List.length_cons, List.length_nil] at hfuel
      omega
    rw [List.append_assoc, List.cons_append, List.singleton_append] at hskip ⊢
    simp only [value?, hskip]
    split
    · next heq => exact absurd heq (hfs.skip_ne _ _)
    · rw [fields?_skip, hread]
      rfl

theorem Reads.items_succ (h : Reads fuel) {vs : List Json} {t rest : List Char}
    (hvs : SpellsItems vs t) (hfuel : t.length < fuel + 1) :
    items? (fuel + 1) (t ++ ']' :: rest) = some (vs, rest) := by
  cases hvs with
  | last ht =>
    have hends : Ends (']' :: rest) := ends_cons (by decide)
    obtain ⟨after, hafter, hread⟩ := h.text ht (by omega) hends
    simp only [items?, hread, Option.bind_eq_bind, Option.bind_some, skip_append hafter]
    rfl
  | @more v vs t ts ht hvs =>
    rw [List.length_append, List.length_cons] at hfuel
    have hends : Ends (',' :: (ts ++ ']' :: rest)) := ends_cons (by decide)
    obtain ⟨after, hafter, hread⟩ := h.text ht (by omega) hends
    have hcomma : skip (',' :: (ts ++ ']' :: rest)) = ',' :: (ts ++ ']' :: rest) := rfl
    have hmore : items? fuel (ts ++ ']' :: rest) = some (vs, rest) := h.items hvs (by omega)
    rw [List.append_assoc, List.cons_append]
    simp only [items?, hread, Option.bind_eq_bind, Option.bind_some, skip_append hafter, hcomma,
      hmore]
    rfl

theorem Reads.fields_succ (h : Reads fuel) {fs : List (String × Json)} {t rest : List Char}
    (hfs : SpellsFields fs t) (hfuel : t.length < fuel + 1) :
    fields? (fuel + 1) (t ++ '\x7d' :: rest) = some (fs, rest) := by
  have hcolon : ∀ cs, skip (':' :: cs) = ':' :: cs := fun _ => rfl
  cases hfs with
  | @last f _ hf =>
    obtain ⟨after, t', hafter, hv, hlen, hkey⟩ := hf.exists_value ('\x7d' :: rest)
    have hends : Ends ('\x7d' :: rest) := ends_cons (by decide)
    obtain ⟨after', hafter', hread⟩ := h.text hv (by omega) hends
    simp only [fields?, hkey, Option.bind_eq_bind, Option.bind_some, skip_append hafter, hcolon,
      hread, skip_append hafter']
    rfl
  | @more f fs t ts hf hfs =>
    rw [List.length_append, List.length_cons] at hfuel
    obtain ⟨after, t', hafter, hv, hlen, hkey⟩ := hf.exists_value (',' :: (ts ++ '\x7d' :: rest))
    have hends : Ends (',' :: (ts ++ '\x7d' :: rest)) := ends_cons (by decide)
    obtain ⟨after', hafter', hread⟩ := h.text hv (by omega) hends
    have hcomma : skip (',' :: (ts ++ '\x7d' :: rest)) = ',' :: (ts ++ '\x7d' :: rest) := rfl
    have hmore : fields? fuel (ts ++ '\x7d' :: rest) = some (fs, rest) := h.fields hfs (by omega)
    rw [List.append_assoc, List.cons_append]
    simp only [fields?, hkey, Option.bind_eq_bind, Option.bind_some, skip_append hafter, hcolon,
      hread, skip_append hafter', hcomma, hmore]
    rfl

theorem reads (fuel : Nat) : Reads fuel := by
  induction fuel with
  | zero =>
    constructor
    · intro v t rest hv hfuel _
      obtain ⟨c, more, rfl, _⟩ := hv.exists_head
      simp at hfuel
    · intro vs t rest _ hfuel
      omega
    · intro fs t rest _ hfuel
      omega
  | succ fuel ih => exact ⟨ih.value_succ, ih.items_succ, ih.fields_succ⟩

/-- A text is read as the document that it spells. -/
theorem SpellsText.parse?_eq {j : Json} {s : String} (h : SpellsText j s.toList) :
    parse? s = some j := by
  obtain ⟨after, hafter, hread⟩ := (reads (s.toList.length + 1)).text h (by omega) ends_nil
  rw [List.append_nil, List.append_nil] at hread
  rw [parse?, hread]
  simp [skip_of_blank hafter]

end RustMetrics.Json
