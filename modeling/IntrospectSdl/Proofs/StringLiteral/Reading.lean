import Mathlib.Data.List.Infix
import Mathlib.Tactic.SplitIfs
import IntrospectSdl.Sdl.StringLiteral

/-! # String literals: reading back

A reader of string literals takes a quote, then characters and escapes up to the next quote that no
escape covers (`readLiteral`). A written literal holds no control characters
(`isControl_of_mem_encode`), and whatever follows it, the reader finds its text and stops at its
last quote (`readLiteral_encode`). Within a literal each quote has a backslash in front of it, so
that no three of them stand in a row (`not_infix_encode`), as they would have to at the beginning of
a block string. -/

namespace IntrospectSdl.Proofs.StringLiteral.Reading

open IntrospectSdl.Sdl.StringLiteral

/-! ### The reader -/

/-- The value of a hexadecimal digit. -/
def hexValue (c : Char) : Option Nat :=
  if '0' ≤ c ∧ c ≤ '9' then some (c.toNat - '0'.toNat)
  else if 'A' ≤ c ∧ c ≤ 'F' then some (c.toNat - 'A'.toNat + 10)
  else if 'a' ≤ c ∧ c ≤ 'f' then some (c.toNat - 'a'.toNat + 10)
  else none

/-- The number of which the characters are the hexadecimal digits. -/
def hexNumber (digits : List Char) : Option Nat :=
  digits.foldlM (fun n c => (hexValue c).map (16 * n + ·)) 0

/-- The character that a letter behind a backslash stands for. -/
def escapeValue : Char → Option Char
  | '"' => some '"'
  | '\\' => some '\\'
  | '/' => some '/'
  | 'b' => some '\x08'
  | 'f' => some '\x0c'
  | 'n' => some '\n'
  | 'r' => some '\r'
  | 't' => some '\t'
  | _ => none

/-- The text up to the closing quote, and what follows the quote. -/
def readContent : List Char → Option (List Char × List Char)
  | '"' :: rest => some ([], rest)
  | '\\' :: 'u' :: a :: b :: c :: d :: rest => do
    let n ← hexNumber [a, b, c, d]
    let r ← readContent rest
    if n.isValidChar then some (Char.ofNat n :: r.1, r.2) else none
  | '\\' :: e :: rest => do
    let c ← escapeValue e
    let r ← readContent rest
    some (c :: r.1, r.2)
  | c :: rest =>
    if c = '\n' ∨ c = '\r' then none else (readContent rest).map fun r => (c :: r.1, r.2)
  | [] => none

/-- The text of the literal at the beginning of a text, and what follows the literal. -/
def readLiteral : List Char → Option (List Char × List Char)
  | '"' :: rest => readContent rest
  | _ => none

/-! ### Controls -/

theorem hexDigit_mod (n : Nat) : hexDigit (n % 16) = hexDigit n := by
  rw [hexDigit, hexDigit, Nat.mod_mod]

theorem hexValue_hexDigit (n : Nat) : hexValue (hexDigit n) = some (n % 16) := by
  have hdigits : ∀ k < 16, hexValue (hexDigit k) = some k := by decide
  rw [← hexDigit_mod]
  exact hdigits _ (Nat.mod_lt n (by decide))

theorem hexNumber_fourDigits {n : Nat} (h : n < 0x10000) : hexNumber (fourDigits n) = some n := by
  simp only [hexNumber, fourDigits, List.foldlM_cons, List.foldlM_nil, hexValue_hexDigit,
    Option.map_some, Option.bind_eq_bind, Option.bind_some, Option.pure_def, Option.some_inj]
  omega

theorem isControl_hexDigit (n : Nat) : isControl (hexDigit n) = false := by
  have hdigits : ∀ k < 16, isControl (hexDigit k) = false := by decide
  rw [← hexDigit_mod]
  exact hdigits _ (Nat.mod_lt n (by decide))

theorem toNat_lt_of_isControl {c : Char} (h : isControl c = true) : c.toNat < 0xA0 := by
  simp only [isControl, Bool.or_eq_true, Bool.and_eq_true, decide_eq_true_eq] at h
  omega

theorem isControl_of_mem_encodeChar {c d : Char} (h : d ∈ encodeChar c) : isControl d = false := by
  unfold encodeChar at h
  split at h
  case h_8 =>
    split_ifs at h with hc
    · simp only [fourDigits, List.mem_append, List.mem_cons, List.not_mem_nil, or_false] at h
      rcases h with (rfl | rfl) | rfl | rfl | rfl | rfl
      · decide
      · decide
      all_goals exact isControl_hexDigit _
    · rw [List.mem_singleton.mp h]
      exact Bool.eq_false_iff.mpr hc
  all_goals
    simp only [List.mem_cons, List.not_mem_nil, or_false] at h
    rcases h with rfl | rfl <;> decide

/-- **A literal holds no control characters.** -/
theorem isControl_of_mem_encode {text : List Char} {d : Char} (h : d ∈ encode text) :
    isControl d = false := by
  rw [encode, List.cons_append, List.mem_cons, List.mem_append, List.mem_flatMap,
    List.mem_singleton] at h
  rcases h with rfl | ⟨c, -, hc⟩ | rfl
  · rfl
  · exact isControl_of_mem_encodeChar hc
  · rfl

/-! ### Reading back -/

/-- What is written for a control without a letter is read as that control. -/
theorem readContent_control {c : Char} (hc : isControl c = true) {rest text after : List Char}
    (h : readContent rest = some (text, after)) :
    readContent (['\\', 'u'] ++ fourDigits c.toNat ++ rest) = some (c :: text, after) := by
  have hlt := toNat_lt_of_isControl hc
  have hn : hexNumber (fourDigits c.toNat) = some c.toNat := hexNumber_fourDigits (by omega)
  have hv : c.toNat.isValidChar := c.valid
  rw [fourDigits] at hn ⊢
  simp only [List.cons_append, List.nil_append, readContent, hn, h, Option.bind_eq_bind,
    Option.bind_some, if_pos hv, Char.ofNat_toNat]

/-- **A written character is read as itself.** -/
theorem readContent_encodeChar {c : Char} {rest text after : List Char}
    (h : readContent rest = some (text, after)) :
    readContent (encodeChar c ++ rest) = some (c :: text, after) := by
  unfold encodeChar
  split
  case h_8 hq hb _ _ hn _ hr =>
    split_ifs with hc
    · exact readContent_control hc h
    · rw [List.singleton_append, readContent.eq_4 c rest hq (fun _ _ _ _ _ h _ => hb h)
        (fun _ _ h _ => hb h), if_neg (not_or.mpr ⟨hn, hr⟩), h]
      rfl
  all_goals simp [readContent, escapeValue, h]

/-- **The reader finds the text of a literal and stops at its last quote.** -/
theorem readLiteral_encode (text rest : List Char) :
    readLiteral (encode text ++ rest) = some (text, rest) := by
  have hcontent : readContent (text.flatMap encodeChar ++ '"' :: rest) = some (text, rest) := by
    induction text with
    | nil => rfl
    | cons c text ih =>
      rw [List.flatMap_cons, List.append_assoc]
      exact readContent_encodeChar ih
  rw [encode, List.cons_append, List.cons_append, List.append_assoc, List.singleton_append,
    readLiteral, hcontent]

/-! ### Quotes -/

/-- A text that does not begin with two quotes and in which no three stand in a row. A quote can be
put in front of it. -/
structure Sparse (text : List Char) : Prop where
  beginning : ¬ ['"', '"'] <+: text
  inside : ¬ ['"', '"', '"'] <:+: text

variable {text : List Char}

theorem Sparse.quote (h : Sparse text) : ¬ ['"', '"', '"'] <:+: '"' :: text := by
  intro hquotes
  rcases List.infix_cons_iff.mp hquotes with hthree | hinfix
  · exact h.beginning (List.cons_prefix_cons.mp hthree).2
  · exact h.inside hinfix

theorem sparse_cons {c : Char} (hc : c ≠ '"') (h : ¬ ['"', '"', '"'] <:+: text) :
    Sparse (c :: text) := by
  have hstart (quotes : List Char) : ¬ '"' :: quotes <+: c :: text := by
    intro hquotes
    exact hc (List.cons_prefix_cons.mp hquotes).1.symm
  refine ⟨hstart ['"'], fun hquotes => ?_⟩
  rcases List.infix_cons_iff.mp hquotes with hthree | hinfix
  · exact hstart ['"', '"'] hthree
  · exact h hinfix

theorem Sparse.append {front : List Char} (hfront : '"' ∉ front) (h : Sparse text) :
    Sparse (front ++ text) := by
  induction front with
  | nil => exact h
  | cons c front ih =>
    rw [List.mem_cons, not_or] at hfront
    exact sparse_cons (Ne.symm hfront.1) (ih hfront.2).inside

theorem quote_ne_hexDigit (n : Nat) : '"' ≠ hexDigit n := by
  have hdigits : ∀ k < 16, '"' ≠ hexDigit k := by decide
  rw [← hexDigit_mod]
  exact hdigits _ (Nat.mod_lt n (by decide))

theorem quote_not_mem_fourDigits (n : Nat) : '"' ∉ fourDigits n := by
  simp [fourDigits, quote_ne_hexDigit]

/-- What is written for a character holds no quote, or one behind a backslash. -/
theorem sparse_encodeChar_append (c : Char) (h : Sparse text) : Sparse (encodeChar c ++ text) := by
  unfold encodeChar
  split
  case h_1 => exact sparse_cons (by decide) h.quote
  case h_8 hquote _ _ _ _ _ _ =>
    split_ifs
    · rw [List.append_assoc]
      exact (h.append (quote_not_mem_fourDigits _)).append (by decide)
    · exact sparse_cons hquote h.inside
  all_goals exact h.append (by decide)

/-- **No three quotes of a literal stand in a row.** -/
theorem not_infix_encode (text : List Char) : ¬ ['"', '"', '"'] <:+: encode text := by
  have hcontent : Sparse (text.flatMap encodeChar ++ ['"']) := by
    induction text with
    | nil => exact ⟨by decide, by decide⟩
    | cons c text ih =>
      rw [List.flatMap_cons, List.append_assoc]
      exact sparse_encodeChar_append c ih
  exact hcontent.quote

/-- **A literal stays on one line and reads back**: it holds no control characters, the reader finds
its text and closes it at its last quote whatever follows, and it is not taken for a block
string. -/
theorem encode_reads_back (text rest : List Char) :
    (∀ c ∈ encode text, isControl c = false) ∧
      readLiteral (encode text ++ rest) = some (text, rest) ∧
        ¬ ['"', '"', '"'] <:+: encode text :=
  ⟨fun _ hc => isControl_of_mem_encode hc, readLiteral_encode text rest, not_infix_encode text⟩

end IntrospectSdl.Proofs.StringLiteral.Reading
