import Mathlib.Data.List.Basic

/-! # Legibility: reading a text from its beginning

Writing values one after another is legible if a text that begins with a written value tells which
value that is and where it ends (`Legible`). What follows may have to begin in a certain way, and
values may be told apart only up to some view of them. Legible parts make a legible whole: one after
the other (`Legible.append`), present or absent (`Legible.option`, `Legible.unlessEmpty`,
`Legible.flag`), and any number of them, with separators (`Legible.intercalate`) or without
(`Legible.flatMap`). -/

namespace IntrospectSdl.Proofs.Legibility.Basic

/-- Two texts that begin with written values tell the same of the values and have the same rest. The
values are of some kind, and so is what follows them. -/
def Legible {α β : Type} (ok : α → Prop) (stop : List Char → Prop) (write : α → List Char)
    (view : α → β) : Prop :=
  ∀ ⦃a b : α⦄ ⦃r s : List Char⦄, ok a → ok b → stop r → stop s →
    write a ++ r = write b ++ s → view a = view b ∧ r = s

/-- No condition on a text or on a value. -/
def Any {α : Type} (_ : α) : Prop := True

/-- A text that begins with a character of some kind. -/
def Begins (p : Char → Bool) (text : List Char) : Prop := text.head?.any p = true

/-- A text that is empty or begins with a character of some kind. -/
def Follows (p : Char → Bool) (text : List Char) : Prop := text.head?.all p = true

variable {α β γ δ : Type} {ok : α → Prop} {stop next : List Char → Prop}
  {w w₁ w₂ : α → List Char} {v : α → β}

/-! ### Beginnings of texts -/

section

variable {p q : Char → Bool} {c : Char} {text rest : List Char}

theorem begins_cons : Begins p (c :: text) ↔ p c = true := Iff.rfl

theorem follows_cons : Follows p (c :: text) ↔ p c = true := Iff.rfl

theorem Begins.append (h : Begins p text) (rest : List Char) : Begins p (text ++ rest) := by
  cases text with
  | nil => cases h
  | cons c text => exact h

theorem Begins.follows (h : Begins p text) : Follows p text := by
  cases text with
  | nil => rfl
  | cons c text => exact h

theorem Begins.mono (h : Begins p text) (hpq : ∀ c, p c = true → q c = true) : Begins q text := by
  cases text with
  | nil => cases h
  | cons c text => exact hpq c h

theorem Follows.append (ht : Follows p text) (hr : Follows p rest) : Follows p (text ++ rest) := by
  cases text with
  | nil => exact hr
  | cons c text => exact ht

theorem Follows.mono (h : Follows p text) (hpq : ∀ c, p c = true → q c = true) :
    Follows q text := by
  cases text with
  | nil => rfl
  | cons c text => exact hpq c h

theorem Follows.not_begins (h : Follows p text) (hpq : ∀ c, p c = true → q c = false) :
    ¬ Begins q text := by
  cases text with
  | nil => exact Bool.false_ne_true
  | cons c text => exact Bool.eq_false_iff.mp (hpq c h)

end

/-- **Characters up to the first of another kind** are told from what follows. -/
theorem append_eq_append_of_follows {p : Char → Bool} {a b r s : List Char}
    (ha : ∀ c ∈ a, p c = true) (hb : ∀ c ∈ b, p c = true) (hr : Follows (!p ·) r)
    (hs : Follows (!p ·) s) (h : a ++ r = b ++ s) : a = b ∧ r = s := by
  have short : ∀ {c : Char} {a r s : List Char}, p c = true → Follows (!p ·) s →
      c :: a ++ r ≠ s := by
    rintro c a r s hc hs rfl
    have := follows_cons.mp hs
    rw [hc] at this
    cases this
  induction a generalizing b with
  | nil =>
    cases b with
    | nil => exact ⟨rfl, h⟩
    | cons d b => exact absurd h.symm (short (hb d List.mem_cons_self) hr)
  | cons c a ih =>
    cases b with
    | nil => exact absurd h (short (ha c List.mem_cons_self) hs)
    | cons d b =>
      rw [List.forall_mem_cons] at ha hb
      rw [List.cons_append, List.cons_append, List.cons_eq_cons] at h
      obtain ⟨hab, hrs⟩ := ih ha.2 hb.2 h.2
      exact ⟨by rw [h.1, hab], hrs⟩

namespace Legible

/-! ### Weaker readings -/

theorem mono {ok' : α → Prop} {stop' : List Char → Prop} (h : Legible ok stop w v)
    (hok : ∀ a, ok' a → ok a) (hstop : ∀ r, stop' r → stop r) : Legible ok' stop' w v :=
  fun _ _ _ _ ha hb hr hs => h (hok _ ha) (hok _ hb) (hstop _ hr) (hstop _ hs)

/-- What is told of a value may be told in other words. -/
theorem view {v' : α → γ} (h : Legible ok stop w v)
    (hv : ∀ a b, ok a → ok b → v a = v b → v' a = v' b) : Legible ok stop w v' :=
  fun _ _ _ _ ha hb hr hs he => (h ha hb hr hs he).imp_left (hv _ _ ha hb)

theorem part (ok' : δ → Prop) (f : δ → α) (h : Legible ok stop w v) (hok : ∀ d, ok' d → ok (f d)) :
    Legible ok' stop (fun d => w (f d)) (fun d => v (f d)) :=
  fun _ _ _ _ ha hb hr hs => h (hok _ ha) (hok _ hb) hr hs

/-- Texts of which none begins another are told apart, whatever follows. -/
theorem of_prefix (h : ∀ a b, w a <+: w b → a = b) : Legible Any Any w id := by
  intro a b r s _ _ _ _ he
  have hab : a = b := by
    have ha : w a <+: w b ++ s := ⟨r, he⟩
    rcases List.prefix_or_prefix_of_prefix ha (List.prefix_append (w b) s) with hp | hp
    · exact h a b hp
    · exact (h b a hp).symm
  subst hab
  exact ⟨rfl, List.append_cancel_left he⟩

/-! ### One after the other -/

/-- **Two parts, one after the other.** -/
theorem append {v₁ : α → β} {v₂ : α → γ} (h₁ : Legible ok next w₁ v₁) (h₂ : Legible ok stop w₂ v₂)
    (hs : ∀ a r, ok a → stop r → next (w₂ a ++ r)) :
    Legible ok stop (fun a => w₁ a ++ w₂ a) (fun a => (v₁ a, v₂ a)) := by
  intro a b r s ha hb hr hs' h
  simp only [List.append_assoc] at h
  obtain ⟨hv₁, h⟩ := h₁ ha hb (hs a r ha hr) (hs b s hb hs') h
  obtain ⟨hv₂, h⟩ := h₂ ha hb hr hs' h
  exact ⟨Prod.ext hv₁ hv₂, h⟩

theorem text_append (text : List Char) (h : Legible ok stop w v) :
    Legible ok stop (fun a => text ++ w a) v := by
  intro a b r s ha hb hr hs he
  simp only [List.append_assoc] at he
  exact h ha hb hr hs (List.append_cancel_left he)

theorem append_text (text : List Char) (h : Legible ok next w v)
    (hs : ∀ r, stop r → next (text ++ r)) : Legible ok stop (fun a => w a ++ text) v := by
  intro a b r s ha hb hr hs' he
  simp only [List.append_assoc] at he
  exact (h ha hb (hs r hr) (hs s hs') he).imp_right List.append_cancel_left

/-! ### Present or absent -/

/-- **A part that may be absent**, if what follows does not begin as the part does. -/
theorem option (starts : List Char → Prop) (h : Legible ok stop w v)
    (hstart : ∀ a r, ok a → starts (w a ++ r))
    (hstop : ∀ r, stop r → ¬ starts r) :
    Legible (fun o : Option α => ∀ a ∈ o, ok a) stop (fun o => o.elim [] w) (Option.map v) := by
  intro a b r s ha hb hr hs he
  cases a with
  | none =>
    cases b with
    | none => exact ⟨rfl, he⟩
    | some b =>
      have he : r = w b ++ s := he
      exact absurd (he ▸ hstart b s (hb b rfl)) (hstop r hr)
  | some a =>
    cases b with
    | none =>
      have he : w a ++ r = s := he
      exact absurd (he ▸ hstart a r (ha a rfl)) (hstop s hs)
    | some b =>
      obtain ⟨hv, he⟩ := h (ha a rfl) (hb b rfl) hr hs he
      exact ⟨congrArg some hv, he⟩

/-- A list of which the text is empty if the list is. -/
theorem unlessEmpty {ok : List α → Prop} {w : List α → List Char} {v : List α → β}
    (starts : List Char → Prop) (h : Legible (fun l => l ≠ [] ∧ ok l) stop w v)
    (hstart : ∀ l r, l ≠ [] → ok l → starts (w l ++ r)) (hstop : ∀ r, stop r → ¬ starts r) :
    Legible ok stop (fun l => if l.isEmpty then [] else w l) v := by
  intro a b r s ha hb hr hs he
  simp only [List.isEmpty_iff] at he
  split_ifs at he with hna hnb hnb
  · exact ⟨by rw [hna, hnb], he⟩
  · rw [List.nil_append] at he
    exact absurd (he ▸ hstart b s hnb hb) (hstop r hr)
  · rw [List.nil_append] at he
    exact absurd (he ▸ hstart a r hna ha) (hstop s hs)
  · exact h ⟨hna, ha⟩ ⟨hnb, hb⟩ hr hs he

theorem flag {text : List Char} (hstop : ∀ r, stop r → ¬ text <+: r) :
    Legible Any stop (fun b : Bool => if b then text else []) id := by
  intro a b r s _ _ hr hs he
  cases a with
  | false =>
    cases b with
    | false => exact ⟨rfl, he⟩
    | true => exact absurd ⟨s, he.symm⟩ (hstop r hr)
  | true =>
    cases b with
    | false => exact absurd ⟨r, he⟩ (hstop s hs)
    | true => exact ⟨rfl, List.append_cancel_left he⟩

/-! ### Any number -/

theorem next_flatMap (starts : List Char → Prop) (hstart : ∀ a r, ok a → starts (w a ++ r))
    (hnext : ∀ r, starts r ∨ stop r → next r) {l : List α} {r : List Char} (hl : ∀ a ∈ l, ok a)
    (hr : stop r) : next (l.flatMap w ++ r) := by
  cases l with
  | nil => exact hnext _ (Or.inr hr)
  | cons a l =>
    rw [List.flatMap_cons, List.append_assoc]
    exact hnext _ (Or.inl (hstart a _ (hl a List.mem_cons_self)))

/-- **Any number of parts**, if what follows does not begin as a part does. -/
theorem flatMap (starts : List Char → Prop) (h : Legible ok next w v)
    (hstart : ∀ a r, ok a → starts (w a ++ r))
    (hstop : ∀ r, stop r → ¬ starts r) (hnext : ∀ r, starts r ∨ stop r → next r) :
    Legible (fun l : List α => ∀ a ∈ l, ok a) stop (List.flatMap w) (List.map v) := by
  have follow : ∀ {l : List α} {r : List Char}, (∀ a ∈ l, ok a) → stop r →
      next (l.flatMap w ++ r) := next_flatMap starts hstart hnext
  have absent : ∀ {a : α} {l : List α} {r s : List Char}, ok a → stop s →
      (a :: l).flatMap w ++ r ≠ s := by
    rintro a l r s ha hs rfl
    rw [List.flatMap_cons, List.append_assoc] at hs
    exact hstop _ hs (hstart a _ ha)
  intro as bs r s ha hb hr hs he
  induction as generalizing bs with
  | nil =>
    cases bs with
    | nil => exact ⟨rfl, he⟩
    | cons b bs => exact absurd he.symm (absent (hb b List.mem_cons_self) hr)
  | cons a as ih =>
    cases bs with
    | nil => exact absurd he (absent (ha a List.mem_cons_self) hs)
    | cons b bs =>
      rw [List.forall_mem_cons] at ha hb
      rw [List.flatMap_cons, List.flatMap_cons, List.append_assoc, List.append_assoc] at he
      obtain ⟨hv, he⟩ := h ha.1 hb.1 (follow ha.2 hr) (follow hb.2 hs) he
      obtain ⟨hvs, he⟩ := ih ha.2 hb.2 he
      exact ⟨by rw [List.map_cons, List.map_cons, hv, hvs], he⟩

theorem intercalate_cons (sep text : List Char) (texts : List (List Char)) :
    List.intercalate sep (text :: texts) = text ++ texts.flatMap (sep ++ ·) := by
  induction texts generalizing text with
  | nil => simp [List.intercalate]
  | cons t texts ih =>
    rw [List.intercalate_cons_cons, ih, List.flatMap_cons, List.append_assoc, List.append_assoc]

/-- **Any number of parts with a separator between each two.** -/
theorem intercalate {sep : List Char} (starts : List Char → Prop) (h : Legible ok next w v)
    (hstart : ∀ a r, ok a → starts (w a ++ r)) (hstop : ∀ r, stop r → ¬ starts r)
    (hsep : ∀ r, stop r → ¬ sep <+: r) (hnext : ∀ r, sep <+: r ∨ stop r → next r) :
    Legible (fun l : List α => ∀ a ∈ l, ok a) stop
      (fun l => List.intercalate sep (l.map w)) (List.map v) := by
  have hpart : ∀ (a : α) (r : List Char), ok a → sep <+: sep ++ w a ++ r :=
    fun a r _ => ⟨w a ++ r, (List.append_assoc ..).symm⟩
  have tail : Legible (fun l : List α => ∀ a ∈ l, ok a) stop (List.flatMap fun a => sep ++ w a)
      (List.map v) := flatMap (sep <+: ·) (h.text_append sep) hpart hsep hnext
  have follow : ∀ {l : List α} {r : List Char}, (∀ a ∈ l, ok a) → stop r →
      next ((l.flatMap fun a => sep ++ w a) ++ r) := next_flatMap (sep <+: ·) hpart hnext
  have head : ∀ (a : α) (l : List α) (r : List Char),
      List.intercalate sep ((a :: l).map w) ++ r =
        w a ++ ((l.flatMap fun a => sep ++ w a) ++ r) := by
    intro a l r
    rw [List.map_cons, intercalate_cons, List.flatMap_map, List.append_assoc]
  intro as bs r s ha hb hr hs he
  cases as with
  | nil =>
    cases bs with
    | nil => exact ⟨rfl, he⟩
    | cons b bs =>
      rw [head] at he
      have he : r = w b ++ ((bs.flatMap fun a => sep ++ w a) ++ s) := he
      exact absurd (he ▸ hstart b _ (hb b List.mem_cons_self)) (hstop r hr)
  | cons a as =>
    rw [head] at he
    cases bs with
    | nil =>
      have he : w a ++ ((as.flatMap fun a => sep ++ w a) ++ r) = s := he
      exact absurd (he ▸ hstart a _ (ha a List.mem_cons_self)) (hstop s hs)
    | cons b bs =>
      rw [head] at he
      rw [List.forall_mem_cons] at ha hb
      obtain ⟨hv, he⟩ := h ha.1 hb.1 (follow ha.2 hr) (follow hb.2 hs) he
      obtain ⟨hvs, he⟩ := tail ha.2 hb.2 hr hs he
      exact ⟨by rw [List.map_cons, List.map_cons, hv, hvs], he⟩

end Legible

end IntrospectSdl.Proofs.Legibility.Basic
