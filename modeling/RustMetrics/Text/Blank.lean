/-! Blanks and line breaks. Both are sets of the Unicode standard: a blank is
any white space character or one of the four separators U+001C to U+001F, and
a line break is any character that ends a line. Every line break is a blank,
so a text that starts with no blank has a first line that is not empty. -/

namespace RustMetrics.Text

def isBlank (c : Char) : Bool :=
  let n := c.toNat
  (0x09 ≤ n && n ≤ 0x0D) || (0x1C ≤ n && n ≤ 0x20) || n == 0x85 || n == 0xA0 ||
    n == 0x1680 || (0x2000 ≤ n && n ≤ 0x200A) || n == 0x2028 || n == 0x2029 ||
    n == 0x202F || n == 0x205F || n == 0x3000

def isBreak (c : Char) : Bool :=
  let n := c.toNat
  (0x0A ≤ n && n ≤ 0x0D) || (0x1C ≤ n && n ≤ 0x1E) || n == 0x85 ||
    n == 0x2028 || n == 0x2029

theorem isBlank_of_isBreak {c : Char} (h : isBreak c = true) : isBlank c = true := by
  simp only [isBreak, isBlank, Bool.or_eq_true, Bool.and_eq_true, decide_eq_true_eq,
    beq_iff_eq] at *
  omega

/-- A text without the blanks at its two ends. -/
def strip (s : List Char) : List Char :=
  ((s.dropWhile isBlank).reverse.dropWhile isBlank).reverse

/-- The lines of a text, without the characters that end them. A carriage
return and a line feed after it end one line. -/
def lines : List Char → List (List Char)
  | [] => []
  | '\r' :: '\n' :: rest => [] :: lines rest
  | c :: rest =>
    if isBreak c then [] :: lines rest
    else match lines rest with
      | [] => [[c]]
      | line :: more => (c :: line) :: more

/-- A text in which a line feed ends every line. After a carriage return a line feed
ends the same line. -/
def withLineFeeds (s : List Char) : List Char :=
  (s.zip (' ' :: s)).filterMap fun (c, before) =>
    if c == '\n' && before == '\r' then none else some (if c == '\r' then '\n' else c)

/-- The first line of a text once its outer blanks are gone. -/
def firstLine? (s : String) : Option String :=
  (lines (strip s.toList)).head?.map String.ofList

end RustMetrics.Text
