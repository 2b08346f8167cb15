import IntrospectSdl.Proofs.Stripping.Description

/-! # Stripping: documents

How far a line has got decides whether stripping can touch it: a line that has something other than
a triple quote behind its blanks is kept. The state of the current line is followed through a
document, character by character (`advance`, `advanceAll`); source text must never put a quote at
the beginning of a line, and descriptions must stand at the beginning of lines. For a document that
keeps to this, stripping its text with descriptions gives its text without them
(`strip_write`). -/

namespace IntrospectSdl.Proofs.Stripping.Progress

open IntrospectSdl.Sdl IntrospectSdl.Sdl.Stripping IntrospectSdl.Sdl.BlockString
open IntrospectSdl.Proofs.Stripping.Description

/-- What stands on the current line so far. -/
inductive LineState where
  /-- Nothing. -/
  | start
  /-- Spaces and tabulations. -/
  | blank
  /-- Something that is no quote, behind spaces and tabulations. -/
  | settled
deriving DecidableEq, Repr

/-- The state of the line after one more character; none if a quote would begin the line. -/
def advance (state : LineState) (c : Char) : Option LineState :=
  if c = '\n' then some .start
  else if state = .settled then some .settled
  else if isBlank c then some .blank
  else if c = '"' then none
  else some .settled

/-- The state of the line after a text. -/
def advanceAll (state : LineState) (text : List Char) : Option LineState :=
  text.foldlM advance state

/-- The state of the line after a piece of a document. A description has to begin a line. -/
def advancePiece (state : LineState) : Piece → Option LineState
  | .source text => advanceAll state text
  | .description _ _ => if state = .start then some .start else none

/-- The state of the line after a document. -/
def advanceDocument (state : LineState) (document : Document) : Option LineState :=
  document.foldlM advancePiece state

theorem advanceAll_cons (state : LineState) (c : Char) (text : List Char) :
    advanceAll state (c :: text) = (advance state c).bind (advanceAll · text) := rfl

theorem advanceAll_append (state : LineState) (a b : List Char) :
    advanceAll state (a ++ b) = (advanceAll state a).bind (advanceAll · b) :=
  List.foldlM_append

theorem advanceDocument_append (state : LineState) (a b : Document) :
    advanceDocument state (a ++ b) = (advanceDocument state a).bind (advanceDocument · b) :=
  List.foldlM_append

/-! ### Lines in their states -/

/-- A line that has come to a state so far. -/
def InState (line : List Char) : LineState → Prop
  | .start => line = []
  | .blank => ∀ c ∈ line, isBlank c = true
  | .settled => '\n' ∉ line ∧ ∀ rest, afterOpening (line ++ rest) = none

theorem afterOpening_append {blanks : List Char} (h : ∀ c ∈ blanks, isBlank c = true)
    (rest : List Char) : afterOpening (blanks ++ rest) = afterOpening rest := by
  rw [afterOpening, unindent_append h, afterOpening]

theorem afterOpening_cons {c : Char} (hb : isBlank c = false) (hq : c ≠ '"') (rest : List Char) :
    afterOpening (c :: rest) = none := by
  rw [afterOpening_eq_none_iff, unindent, List.dropWhile_cons_of_neg (by simp [hb])]
  rintro ⟨tail, h⟩
  exact hq (List.cons_eq_cons.mp h).1.symm

theorem InState.blanks {line : List Char} {state : LineState} (h : InState line state)
    (hs : state ≠ .settled) : ∀ c ∈ line, isBlank c = true := by
  cases state with
  | start => simp [show line = [] from h]
  | blank => exact h
  | settled => exact absurd rfl hs

theorem InState.lineFeed_not_mem {line : List Char} {state : LineState} (h : InState line state) :
    '\n' ∉ line := by
  by_cases hs : state = .settled
  · subst hs
    exact h.1
  · exact fun hm => absurd (h.blanks hs _ hm) (by decide)

theorem InState.afterOpening_eq_none {line : List Char} {state : LineState} (h : InState line state)
    {rest : List Char} (hr : rest = [] ∨ rest = ['\n']) : afterOpening (line ++ rest) = none := by
  by_cases hs : state = .settled
  · subst hs
    exact h.2 rest
  · rw [afterOpening_append (h.blanks hs)]
    rcases hr with rfl | rfl <;> rfl

theorem InState.concat {line : List Char} {state next : LineState} {c : Char}
    (h : InState line state) (hc : c ≠ '\n') (ha : advance state c = some next) :
    InState (line ++ [c]) next := by
  have hmem : '\n' ∉ line ++ [c] := by simp [h.lineFeed_not_mem, Ne.symm hc]
  rw [advance, if_neg hc] at ha
  split_ifs at ha with hs hb hq
  · obtain rfl := Option.some.inj ha
    subst hs
    exact ⟨hmem, fun rest => by rw [List.append_assoc]; exact h.2 _⟩
  · obtain rfl := Option.some.inj ha
    exact List.forall_mem_append.mpr ⟨h.blanks hs, by simpa using hb⟩
  · obtain rfl := Option.some.inj ha
    refine ⟨hmem, fun rest => ?_⟩
    rw [List.append_assoc, afterOpening_append (h.blanks hs)]
    exact afterOpening_cons (Bool.eq_false_iff.mpr hb) hq rest

/-! ### Stripping along the way -/

/-- Stripping one text gives another, up to the current line, which is in some state. -/
def Stripped (shown hidden : List Char) (state : LineState) : Prop :=
  ∃ kept line, hidden = kept ++ line ∧ InState line state ∧
    ∀ rest, strip (shown ++ rest) = kept ++ strip (line ++ rest)

theorem stripped_nil : Stripped [] [] .start := ⟨[], [], rfl, rfl, fun _ => rfl⟩

theorem Stripped.strip_eq {shown hidden : List Char} {state : LineState}
    (h : Stripped shown hidden state) : strip shown = hidden := by
  obtain ⟨kept, line, rfl, hline, hstrip⟩ := h
  have ho := hline.afterOpening_eq_none (Or.inl rfl)
  have := hstrip []
  rw [List.append_nil] at this ho
  rwa [List.append_nil, strip_last hline.lineFeed_not_mem ho] at this

/-- **One character of source text** stays as it is. -/
theorem Stripped.character {shown hidden : List Char} {state next : LineState} {c : Char}
    (h : Stripped shown hidden state) (ha : advance state c = some next) :
    Stripped (shown ++ [c]) (hidden ++ [c]) next := by
  obtain ⟨kept, line, rfl, hline, hstrip⟩ := h
  by_cases hc : c = '\n'
  · subst hc
    obtain rfl : LineState.start = next := Option.some.inj ha
    refine ⟨kept ++ line ++ ['\n'], [], (List.append_nil _).symm, rfl, fun rest => ?_⟩
    have ho := hline.afterOpening_eq_none (Or.inr rfl)
    rw [List.append_assoc, hstrip, List.singleton_append, strip_line hline.lineFeed_not_mem ho]
    simp
  · refine ⟨kept, line ++ [c], List.append_assoc _ _ _, hline.concat hc ha, fun rest => ?_⟩
    rw [List.append_assoc, hstrip, List.append_assoc]

theorem Stripped.source {shown hidden : List Char} {state next : LineState} {text : List Char}
    (h : Stripped shown hidden state) (ha : advanceAll state text = some next) :
    Stripped (shown ++ text) (hidden ++ text) next := by
  induction text generalizing shown hidden state with
  | nil =>
    obtain rfl : state = next := Option.some.inj ha
    simpa using h
  | cons c text ih =>
    rw [advanceAll_cons, Option.bind_eq_some_iff] at ha
    obtain ⟨mid, hc, ha⟩ := ha
    have := ih (h.character hc) ha
    rwa [List.append_assoc, List.append_assoc] at this

theorem Stripped.description {shown hidden : List Char} (h : Stripped shown hidden .start)
    (indent : Nat) (text : List Char) :
    Stripped (shown ++ descriptionLines indent text) hidden .start := by
  obtain ⟨kept, line, rfl, hline, hstrip⟩ := h
  obtain rfl : line = [] := hline
  refine ⟨kept, [], rfl, rfl, fun rest => ?_⟩
  rw [List.append_assoc, hstrip, List.nil_append, strip_descriptionLines, List.nil_append]

/-- **Stripping a document** removes its descriptions and nothing else. -/
theorem Stripped.document {shown hidden : List Char} {state next : LineState} {document : Document}
    (h : Stripped shown hidden state) (ha : advanceDocument state document = some next) :
    Stripped (shown ++ document.write .shown) (hidden ++ document.write .hidden) next := by
  induction document generalizing shown hidden state with
  | nil =>
    obtain rfl : state = next := Option.some.inj ha
    simpa using h
  | cons piece document ih =>
    rw [advanceDocument, List.foldlM_cons] at ha
    obtain ⟨mid, hp, ha⟩ := Option.bind_eq_some_iff.mp ha
    rw [Document.write_cons, ← List.append_assoc, Document.write_cons, ← List.append_assoc]
    refine ih ?_ ha
    cases piece with
    | source text => exact h.source hp
    | description indent text =>
      rw [advancePiece] at hp
      split_ifs at hp with hs
      obtain rfl := Option.some.inj hp
      subst hs
      simpa [Piece.write] using h.description indent text

/-- What stripping leaves of the text of a document is the text without descriptions. -/
theorem strip_write {document : Document} {state : LineState}
    (h : advanceDocument .start document = some state) :
    strip (document.write .shown) = document.write .hidden :=
  (stripped_nil.document h).strip_eq

end IntrospectSdl.Proofs.Stripping.Progress
