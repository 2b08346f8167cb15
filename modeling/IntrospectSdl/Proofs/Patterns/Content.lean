import IntrospectSdl.Sdl.DescriptionPattern
import IntrospectSdl.Proofs.BlockString.Fences
import IntrospectSdl.Proofs.Patterns.Ends

/-! # Patterns: the content of a block string on one line

A block string that closes on its line closes at the first triple quote that no backslash escapes
(`closingOnLine`). The pattern of its content is a repetition of parts, each of which can be matched
in many ways: its backslashes can be shared out among rounds as one likes. But every way through a
part ends behind the same plain character or escaped triple quote, and none of them passes the
closing one (`Reads`); and while the closing one has not been reached, there is a way through one
more part (`exists_contentPart`). So a match of the content with the closing quotes behind it can
end at one place only, and this is where a reader closes the block (`afterMatch_closed`). -/

namespace IntrospectSdl.Proofs.Patterns.Content

open IntrospectSdl.Sdl IntrospectSdl.Sdl.Pattern IntrospectSdl.Sdl.DescriptionPattern
open IntrospectSdl.Proofs.Patterns.Ends
open Relation (ReflTransGen)

/-! ### Where the reader closes -/

/-- What follows the first triple quote on the line that no backslash escapes. -/
def closingOnLine : List Char → Option (List Char)
  | '\\' :: '"' :: '"' :: '"' :: rest => closingOnLine rest
  | '"' :: '"' :: '"' :: rest => some rest
  | '\n' :: _ => none
  | _ :: rest => closingOnLine rest
  | [] => none

theorem closingOnLine_escape (text : List Char) :
    closingOnLine ('\\' :: (BlockString.fence ++ text)) = closingOnLine text := by
  rw [BlockString.fence, List.cons_append, List.cons_append, List.cons_append, closingOnLine]
  rfl

theorem closingOnLine_fence (text : List Char) :
    closingOnLine (BlockString.fence ++ text) = some text := rfl

theorem closingOnLine_cons {c : Char} {text : List Char} (hc : c ≠ '\n')
    (hf : ¬ BlockString.fence <+: c :: text)
    (he : c = '\\' → ¬ BlockString.fence <+: text) :
    closingOnLine (c :: text) = closingOnLine text := by
  refine closingOnLine.eq_4 c text (fun rest hb ht => ?_) (fun rest hb ht => ?_) hc
  · exact he hb ⟨rest, ht.symm⟩
  · exact hf ⟨rest, by rw [hb, ht]; rfl⟩

theorem not_fence_of_head {text : List Char} (h : text.head? ≠ some '"') :
    ¬ BlockString.fence <+: text := by
  rintro ⟨rest, rfl⟩
  exact h rfl

theorem not_fence_replicate {n : Nat} {text : List Char} (hn : n ≤ 2)
    (h : text.head? ≠ some '"') : ¬ BlockString.fence <+: List.replicate n '"' ++ text := by
  rintro ⟨rest, hrest⟩
  have hget : (List.replicate n '"' ++ text)[n]? = some '"' := by
    rw [← hrest]
    obtain rfl | rfl | rfl : n = 0 ∨ n = 1 ∨ n = 2 := by omega
    all_goals rfl
  rw [List.getElem?_append_right (by simp), List.length_replicate, Nat.sub_self,
    ← List.head?_eq_getElem?] at hget
  exact h hget

theorem closingOnLine_quotes {n : Nat} {text : List Char} (hn : n ≤ 2)
    (h : text.head? ≠ some '"') :
    closingOnLine (List.replicate n '"' ++ text) = closingOnLine text := by
  induction n with
  | zero => rfl
  | succ n ih =>
    have hfence := not_fence_replicate hn h
    rw [List.replicate_succ, List.cons_append] at hfence ⊢
    rw [closingOnLine_cons (by decide) hfence (fun hq => absurd hq (by decide)), ih (by omega)]

theorem closingOnLine_backslash {text : List Char} (h : ¬ BlockString.fence <+: text) :
    closingOnLine ('\\' :: text) = closingOnLine text :=
  closingOnLine_cons (by decide) (not_fence_of_head (by simp)) fun _ => h

/-- Of several backslashes only the last can escape. -/
theorem closingOnLine_backslashes (n : Nat) (text : List Char) :
    closingOnLine (List.replicate n '\\' ++ '\\' :: text) = closingOnLine ('\\' :: text) := by
  induction n with
  | zero => rfl
  | succ n ih =>
    have hhead : (List.replicate n '\\' ++ '\\' :: text).head? ≠ some '"' := by
      cases n <;> simp [List.replicate_succ]
    rw [List.replicate_succ, List.cons_append, closingOnLine_backslash (not_fence_of_head hhead),
      ih]

theorem exists_quotes {text : List Char} (h : ¬ BlockString.fence <+: text) :
    ∃ n rest, n ≤ 2 ∧ text = List.replicate n '"' ++ rest ∧ rest.head? ≠ some '"' := by
  by_cases h₁ : text.head? = some '"'
  · obtain ⟨text, rfl⟩ := List.head?_eq_some_iff.mp h₁
    by_cases h₂ : text.head? = some '"'
    · obtain ⟨text, rfl⟩ := List.head?_eq_some_iff.mp h₂
      refine ⟨2, text, by omega, rfl, fun h₃ => ?_⟩
      obtain ⟨text, rfl⟩ := List.head?_eq_some_iff.mp h₃
      exact h ⟨text, rfl⟩
    · exact ⟨1, text, by omega, rfl, h₂⟩
  · exact ⟨0, text, by omega, rfl, h₁⟩

/-! ### The patterns of marks -/

theorem mem_ends_char {x : Char} {c d : Cursor} :
    d ∈ (Pattern.char x).ends c ↔ c.rest = x :: d.rest ∧ d.atLineStart = (x == '\n') := by
  obtain ⟨atLineStart, rest⟩ := c
  obtain ⟨atLineStart', rest'⟩ := d
  cases rest with
  | nil => simp [Pattern.char, ends_one_nil]
  | cons y rest =>
    by_cases hy : y = x
    · subst hy
      simp [Pattern.char, ends_one_cons, eq_comm, and_comm]
    · simp [Pattern.char, ends_one_cons, hy]

theorem mem_ends_fence {c d : Cursor} :
    d ∈ fence.ends c ↔ c.rest = BlockString.fence ++ d.rest ∧ d.atLineStart = false := by
  have hseq : fence.ends c =
      (Pattern.seq (.char '"') (.seq (.char '"') (.char '"'))).ends c := rfl
  simp only [hseq, ends_seq, List.mem_flatMap, mem_ends_char]
  constructor
  · rintro ⟨m, ⟨hc, -⟩, n, ⟨hm, -⟩, hn, hd⟩
    exact ⟨by rw [hc, hm, hn]; rfl, hd⟩
  · rintro ⟨hc, hd⟩
    exact ⟨⟨false, '"' :: '"' :: d.rest⟩, ⟨hc, rfl⟩, ⟨false, '"' :: d.rest⟩, ⟨rfl, rfl⟩, rfl, hd⟩

theorem exists_of_mem_fewQuotes {c d : Cursor} (h : d ∈ fewQuotes.ends c) :
    ∃ n ≤ 2, c.rest = List.replicate n '"' ++ d.rest := by
  have hcases : (∃ m ∈ (Pattern.char '"').ends c, d ∈ (Pattern.char '"').ends m ∨ d = m) ∨
      d = c := by
    simpa [fewQuotes, Pattern.optional, ends] using h
  rcases hcases with ⟨m, hm, hd | rfl⟩ | rfl
  · rw [mem_ends_char] at hm hd
    exact ⟨2, by omega, by rw [hm.1, hd.1]; rfl⟩
  · rw [mem_ends_char] at hm
    exact ⟨1, by omega, hm.1⟩
  · exact ⟨0, by omega, rfl⟩

theorem mem_fewQuotes {n : Nat} (hn : n ≤ 2) (text : List Char) :
    ⟨false, text⟩ ∈ fewQuotes.ends ⟨false, List.replicate n '"' ++ text⟩ := by
  obtain rfl | rfl | rfl : n = 0 ∨ n = 1 ∨ n = 2 := by omega
  · simp [fewQuotes, Pattern.optional, ends]
  · simp [fewQuotes, Pattern.optional, ends, Pattern.char]
  · simp [fewQuotes, Pattern.optional, ends, Pattern.char]

theorem exists_of_mem_backslashes {c d : Cursor} (h : d ∈ backslashes.ends c) :
    ∃ n, c.rest = List.replicate n '\\' ++ '\\' :: d.rest := by
  obtain ⟨m, hm, hd⟩ := List.mem_flatMap.mp h
  rw [mem_ends_char] at hm
  rw [mem_ends_many_iff] at hd
  have hmany : ∃ n, m.rest = List.replicate n '\\' ++ d.rest := by
    clear hm
    induction hd using ReflTransGen.head_induction_on with
    | refl => exact ⟨0, rfl⟩
    | head hround _ ih =>
      obtain ⟨n, hn⟩ := ih
      exact ⟨n + 1, by rw [(mem_ends_char.mp hround.1).1, hn]; rfl⟩
  obtain ⟨n, hn⟩ := hmany
  exact ⟨n, by rw [hm.1, hn, ← List.cons_append, ← List.replicate_succ, List.replicate_succ',
    List.append_assoc, List.singleton_append]⟩

theorem mem_backslashes (atLineStart : Bool) (text : List Char) :
    ⟨false, text⟩ ∈ backslashes.ends ⟨atLineStart, '\\' :: text⟩ :=
  List.mem_flatMap.mpr ⟨⟨false, text⟩, mem_ends_char.mpr ⟨rfl, rfl⟩,
    mem_ends_many_iff.mpr .refl⟩

/-! ### Ways through a part -/

/-- The end of a part: a plain character, or a triple quote that is escaped. -/
def partEnd : Pattern :=
  .alt (.one fun c => c != '"' && c != '\\' && c != '\n') (.seq backslashes fence)

/-- A part behind its first quotes. -/
def partTail : Pattern := .seq (.many false (.seq backslashes fewQuotes)) partEnd

theorem contentPart_eq : contentPart = .seq fewQuotes partTail := rfl

/-- From one place to another without passing the closing quotes, nor beginning with a quote. -/
structure Reads (c d : Cursor) : Prop where
  head : c.rest.head? ≠ some '"'
  closing : closingOnLine c.rest = closingOnLine d.rest
  shorter : d.rest.length < c.rest.length
  inside : d.atLineStart = false

theorem reads_partEnd {c d : Cursor} (h : d ∈ partEnd.ends c) : Reads c d := by
  rcases List.mem_append.mp h with hplain | hescaped
  · obtain ⟨atLineStart, rest⟩ := c
    cases rest with
    | nil => cases hplain
    | cons x rest =>
      rw [ends_one_cons] at hplain
      split at hplain
      · next hx =>
        obtain rfl := List.mem_singleton.mp hplain
        simp only [Bool.and_eq_true, bne_iff_ne] at hx
        obtain ⟨⟨hq, hb⟩, hl⟩ := hx
        have hhead : (x :: rest).head? ≠ some '"' := by simpa using hq
        exact ⟨hhead, closingOnLine_cons hl (not_fence_of_head hhead) fun h => absurd h hb,
          by simp, by simpa using hl⟩
      · cases hplain
  · obtain ⟨m, hm, hd⟩ := List.mem_flatMap.mp hescaped
    obtain ⟨n, hn⟩ := exists_of_mem_backslashes hm
    obtain ⟨hfence, hinside⟩ := mem_ends_fence.mp hd
    rw [hfence] at hn
    refine ⟨?_, ?_, ?_, hinside⟩
    · rw [hn]
      cases n <;> simp [List.replicate_succ]
    · rw [hn, closingOnLine_backslashes, closingOnLine_escape]
    · rw [hn]
      simp [BlockString.fence]
      omega

/-- A round of backslashes and quotes before something that is no quote. -/
theorem reads_round {c m d : Cursor} (h : Round (.seq backslashes fewQuotes) c m)
    (hd : Reads m d) : Reads c d := by
  obtain ⟨hmem, hshorter⟩ := h
  obtain ⟨b, hb, hm⟩ := List.mem_flatMap.mp hmem
  obtain ⟨k, hk⟩ := exists_of_mem_backslashes hb
  obtain ⟨n, hn, hquotes⟩ := exists_of_mem_fewQuotes hm
  have hfence : ¬ BlockString.fence <+: b.rest := hquotes ▸ not_fence_replicate hn hd.head
  refine ⟨?_, ?_, by have := hd.shorter; omega, hd.inside⟩
  · rw [hk]
    cases k <;> simp [List.replicate_succ]
  · calc closingOnLine c.rest
      _ = closingOnLine ('\\' :: b.rest) := by rw [hk, closingOnLine_backslashes]
      _ = closingOnLine b.rest := closingOnLine_backslash hfence
      _ = closingOnLine m.rest := by rw [hquotes, closingOnLine_quotes hn hd.head]
      _ = closingOnLine d.rest := hd.closing

theorem reads_partTail {c d : Cursor} (h : d ∈ partTail.ends c) : Reads c d := by
  obtain ⟨m, hm, hd⟩ := List.mem_flatMap.mp h
  have hrounds : ReflTransGen (Round (.seq backslashes fewQuotes)) c m := mem_ends_many_iff.mp hm
  clear h hm
  induction hrounds using ReflTransGen.head_induction_on with
  | refl => exact reads_partEnd hd
  | head hround _ ih => exact reads_round hround ih

/-- **No way through a part passes the closing quotes.** -/
theorem reads_contentPart {c d : Cursor} (h : d ∈ contentPart.ends c) :
    closingOnLine c.rest = closingOnLine d.rest ∧ d.rest.length < c.rest.length ∧
      d.atLineStart = false := by
  rw [contentPart_eq] at h
  obtain ⟨m, hm, hd⟩ := List.mem_flatMap.mp h
  obtain ⟨n, hn, hquotes⟩ := exists_of_mem_fewQuotes hm
  have hreads := reads_partTail hd
  refine ⟨?_, ?_, hreads.inside⟩
  · rw [hquotes, closingOnLine_quotes hn hreads.head, hreads.closing]
  · have := hreads.shorter
    rw [hquotes, List.length_append]
    omega

/-! ### A way through a part -/

theorem mem_partTail_of_partEnd {c d : Cursor} (h : d ∈ partEnd.ends c) : d ∈ partTail.ends c :=
  List.mem_flatMap.mpr ⟨c, mem_ends_many_iff.mpr .refl, h⟩

theorem mem_partTail_of_round {c m d : Cursor} (h : Round (.seq backslashes fewQuotes) c m)
    (hd : d ∈ partTail.ends m) : d ∈ partTail.ends c := by
  obtain ⟨e, he, hend⟩ := List.mem_flatMap.mp hd
  exact List.mem_flatMap.mpr ⟨e, mem_ends_many_iff.mpr (.head h (mem_ends_many_iff.mp he)), hend⟩

theorem mem_partEnd_plain {c : Char} (hq : c ≠ '"') (hb : c ≠ '\\') (hl : c ≠ '\n')
    (text : List Char) : ⟨false, text⟩ ∈ partEnd.ends ⟨false, c :: text⟩ := by
  refine List.mem_append_left _ ?_
  simp [ends_one_cons, hq, hb, hl]

theorem mem_partEnd_escaped (text : List Char) :
    ⟨false, text⟩ ∈ partEnd.ends ⟨false, '\\' :: (BlockString.fence ++ text)⟩ :=
  List.mem_append_right _
    (List.mem_flatMap.mpr ⟨_, mem_backslashes false _, mem_ends_fence.mpr ⟨rfl, rfl⟩⟩)

theorem round_backslash {n : Nat} (hn : n ≤ 2) (text : List Char) :
    Round (.seq backslashes fewQuotes) ⟨false, '\\' :: (List.replicate n '"' ++ text)⟩
      ⟨false, text⟩ := by
  refine ⟨List.mem_flatMap.mpr ⟨_, mem_backslashes false _, mem_fewQuotes hn text⟩, ?_⟩
  simp only [List.length_cons, List.length_append]
  omega

/-- Before the closing quotes there is a way through one more part, here behind its first quotes. -/
theorem exists_partTail {text rest : List Char} (hhead : text.head? ≠ some '"')
    (h : closingOnLine text = some rest) : ∃ d, d ∈ partTail.ends ⟨false, text⟩ := by
  -- Each round takes one backslash and the quotes behind it, and so the text gets shorter.
  induction hlen : text.length using Nat.strongRecOn generalizing text with
  | ind size ih =>
    cases text with
    | nil => cases h
    | cons c text =>
      by_cases hl : c = '\n'
      · subst hl
        cases h
      by_cases hb : c = '\\'
      · subst hb
        by_cases hfence : BlockString.fence <+: text
        · obtain ⟨after, rfl⟩ := hfence
          exact ⟨_, mem_partTail_of_partEnd (mem_partEnd_escaped after)⟩
        · obtain ⟨n, after, hn, rfl, hafter⟩ := exists_quotes hfence
          rw [closingOnLine_backslash hfence, closingOnLine_quotes hn hafter] at h
          rw [List.length_cons, List.length_append] at hlen
          obtain ⟨d, hd⟩ := ih after.length (by omega) hafter h rfl
          exact ⟨d, mem_partTail_of_round (round_backslash hn after) hd⟩
      · have hq : c ≠ '"' := by simpa using hhead
        exact ⟨_, mem_partTail_of_partEnd (mem_partEnd_plain hq hb hl text)⟩

theorem exists_contentPart {text rest : List Char} (hf : ¬ BlockString.fence <+: text)
    (h : closingOnLine text = some rest) : ∃ d, d ∈ contentPart.ends ⟨false, text⟩ := by
  obtain ⟨n, after, hn, rfl, hafter⟩ := exists_quotes hf
  rw [closingOnLine_quotes hn hafter] at h
  obtain ⟨d, hd⟩ := exists_partTail hafter h
  exact ⟨d, List.mem_flatMap.mpr ⟨⟨false, after⟩, mem_fewQuotes hn after, hd⟩⟩

/-! ### The content and the closing quotes -/

/-- The content of a block string with its closing quotes. -/
def closed : Pattern := .seq (.many false contentPart) fence

/-- A match of the content with the closing quotes ends where a reader closes. -/
theorem eq_of_mem_closed {c d : Cursor} (h : d ∈ closed.ends c) :
    d.atLineStart = false ∧ closingOnLine c.rest = some d.rest := by
  obtain ⟨m, hm, hd⟩ := List.mem_flatMap.mp h
  obtain ⟨hfence, hinside⟩ := mem_ends_fence.mp hd
  have hparts : ReflTransGen (Round contentPart) c m := mem_ends_many_iff.mp hm
  refine ⟨hinside, ?_⟩
  clear h hm hd
  induction hparts using ReflTransGen.head_induction_on with
  | refl => rw [hfence, closingOnLine_fence]
  | head hround _ ih => rw [(reads_contentPart hround.1).1, ih]

/-- Where a reader closes, a match of the content with the closing quotes can end. -/
theorem mem_closed {text rest : List Char} (h : closingOnLine text = some rest) :
    ⟨false, rest⟩ ∈ closed.ends ⟨false, text⟩ := by
  induction hlen : text.length using Nat.strongRecOn generalizing text with
  | ind size ih =>
    by_cases hfence : BlockString.fence <+: text
    · obtain ⟨after, rfl⟩ := hfence
      obtain rfl : after = rest := Option.some_inj.mp h
      exact List.mem_flatMap.mpr ⟨_, mem_ends_many_iff.mpr .refl, mem_ends_fence.mpr ⟨rfl, rfl⟩⟩
    · obtain ⟨d, hd⟩ := exists_contentPart hfence h
      obtain ⟨hclosing, hshorter, hinside⟩ := reads_contentPart hd
      obtain ⟨_, after⟩ := d
      obtain rfl : _ = false := hinside
      obtain ⟨m, hm, hend⟩ :=
        List.mem_flatMap.mp (ih after.length (hlen ▸ hshorter) (hclosing ▸ h) rfl)
      refine List.mem_flatMap.mpr ⟨m, mem_ends_many_iff.mpr ?_, hend⟩
      exact .head ⟨hd, hshorter⟩ (mem_ends_many_iff.mp hm)

/-- **What is preferred behind the content of a block string is preferred where a reader closes
it.** -/
theorem afterMatch_closed (q : Pattern) (text : List Char) :
    afterMatch (.seq (.many false contentPart) (.seq fence q)) ⟨false, text⟩ =
      (closingOnLine text).bind fun rest => afterMatch q ⟨false, rest⟩ := by
  have hassoc : afterMatch (.seq (.many false contentPart) (.seq fence q)) ⟨false, text⟩ =
      afterMatch (.seq closed q) ⟨false, text⟩ := by
    rw [afterMatch, ends_seq_assoc]
    rfl
  rw [hassoc]
  cases h : closingOnLine text with
  | none =>
    have hnil : closed.ends ⟨false, text⟩ = [] :=
      List.eq_nil_iff_forall_not_mem.mpr fun d hd => by
        have := (eq_of_mem_closed hd).2
        rw [h] at this
        cases this
    rw [afterMatch_seq, hnil]
    rfl
  | some rest =>
    refine afterMatch_seq_of_forall_eq (mem_closed h) fun d hd => ?_
    obtain ⟨hinside, hclosing⟩ := eq_of_mem_closed hd
    rw [h, Option.some_inj] at hclosing
    rw [hclosing, ← hinside]

end IntrospectSdl.Proofs.Patterns.Content
