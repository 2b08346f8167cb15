import Mathlib.Data.List.Forall2

/-! # Chains of steps that may fail

A chain succeeds if each of its steps does: two steps, one after the other (`bind_eq_ok_iff`), or a
step made for each element of a list (`mapM_eq_ok_iff`, `forM_eq_ok_iff`). It fails as the first of
its steps that fails (`bind_eq_error_iff`, `exists_of_foldlM_eq_error`). The same holds of actions
on a state, of which each begins with the state that the one before it leaves
(`outcome_bind_eq_ok_iff`, `outcome_bind_eq_error_iff`). -/

namespace IntrospectSdl.Proofs.Chains

variable {α β ε ε' σ : Type}

/-! ### Steps -/

theorem bind_eq_ok_iff {x : Except ε α} {f : α → Except ε β} {b : β} :
    (x >>= f) = .ok b ↔ ∃ a, x = .ok a ∧ f a = .ok b := by
  cases x with
  | ok a => simp [bind, Except.bind]
  | error e => simp [bind, Except.bind]

theorem bind_pure_eq_ok_iff {x : Except ε α} {g : α → β} {b : β} :
    (x >>= fun a => pure (g a)) = .ok b ↔ ∃ a, x = .ok a ∧ g a = b := by
  simp only [bind_eq_ok_iff, pure, Except.pure, Except.ok.injEq]

theorem bind_eq_error_iff {x : Except ε α} {f : α → Except ε β} {e : ε} :
    (x >>= f) = .error e ↔ x = .error e ∨ ∃ a, x = .ok a ∧ f a = .error e := by
  cases x with
  | ok a => simp [bind, Except.bind]
  | error e => simp [bind, Except.bind]

theorem mapError_eq_ok_iff {g : ε → ε'} {x : Except ε α} {a : α} :
    x.mapError g = .ok a ↔ x = .ok a := by
  cases x <;> simp [Except.mapError]

theorem mapError_eq_error_iff {g : ε → ε'} {x : Except ε α} {e' : ε'} :
    x.mapError g = .error e' ↔ ∃ e, x = .error e ∧ g e = e' := by
  cases x <;> simp [Except.mapError]

/-! ### Steps for the elements of a list -/

/-- **Steps for the elements of a list** succeed if each of them does. -/
theorem mapM_eq_ok_iff {f : α → Except ε β} {l : List α} {l' : List β} :
    l.mapM f = .ok l' ↔ List.Forall₂ (fun a b => f a = .ok b) l l' := by
  induction l generalizing l' with
  | nil => simp [pure, Except.pure, eq_comm]
  | cons a l ih =>
    rw [List.mapM_cons, bind_eq_ok_iff]
    constructor
    · rintro ⟨b, hb, h⟩
      obtain ⟨bs, hbs, rfl⟩ := bind_pure_eq_ok_iff.mp h
      exact .cons hb (ih.mp hbs)
    · intro h
      cases h with
      | cons hb hbs => exact ⟨_, hb, bind_pure_eq_ok_iff.mpr ⟨_, ih.mpr hbs, rfl⟩⟩

theorem mapM_map_eq_ok {f : β → Except ε α} {g : α → β} {l : List α}
    (h : ∀ a ∈ l, f (g a) = .ok a) : (l.map g).mapM f = .ok l := by
  rw [mapM_eq_ok_iff, List.forall₂_map_left_iff, List.forall₂_same]
  exact h

theorem forall_mem_of_mapM {f : α → Except ε β} {p : β → Prop} {l : List α} {l' : List β}
    (h : l.mapM f = .ok l') (hp : ∀ a b, f a = .ok b → p b) : ∀ b ∈ l', p b := by
  rw [mapM_eq_ok_iff] at h
  induction h with
  | nil => exact fun b hb => absurd hb List.not_mem_nil
  | cons hb _ ih => exact List.forall_mem_cons.mpr ⟨hp _ _ hb, ih⟩

theorem forM_eq_ok_iff {f : α → Except ε Unit} :
    ∀ {l : List α}, l.forM f = .ok () ↔ ∀ a ∈ l, f a = .ok ()
  | [] => by simp [List.forM, pure, Except.pure]
  | a :: l => by
    rw [List.forall_mem_cons, ← forM_eq_ok_iff (l := l), List.forM]
    cases f a <;> simp [bind, Except.bind]

theorem exists_of_forM_eq_error {f : α → Except ε Unit} {l : List α} {e : ε}
    (h : l.forM f = .error e) : ∃ a ∈ l, f a = .error e := by
  induction l with
  | nil => cases h
  | cons a l ih =>
    rw [List.forM, bind_eq_error_iff] at h
    rcases h with hfirst | ⟨-, -, hrest⟩
    · exact ⟨a, List.mem_cons_self, hfirst⟩
    · obtain ⟨b, hb, hfails⟩ := ih hrest
      exact ⟨b, .tail _ hb, hfails⟩

/-- **Steps for the elements of a list that fail** fail at one of them, after those before it have
succeeded. -/
theorem exists_of_foldlM_eq_error {f : β → α → Except ε β} {l : List α} {b : β} {e : ε}
    (h : l.foldlM f b = .error e) : ∃ before a after b',
      l = before ++ a :: after ∧ before.foldlM f b = .ok b' ∧ f b' a = .error e := by
  induction l generalizing b with
  | nil => cases h
  | cons a l ih =>
    rw [List.foldlM_cons, bind_eq_error_iff] at h
    rcases h with hfirst | ⟨b', hb', hrest⟩
    · exact ⟨[], a, l, b, rfl, rfl, hfirst⟩
    · obtain ⟨before, c, after, b'', rfl, hbefore, hc⟩ := ih hrest
      refine ⟨a :: before, c, after, b'', rfl, ?_, hc⟩
      rw [List.foldlM_cons, bind_eq_ok_iff]
      exact ⟨b', hb', hbefore⟩

/-! ### Actions on a state -/

/-- The result or the error of an action on a state, and the state afterwards. -/
def outcome (x : ExceptT ε (StateM σ) α) (s : σ) : Except ε α × σ := x.run.run s

section

variable {x : ExceptT ε (StateM σ) α} {f : α → ExceptT ε (StateM σ) β} {s t : σ}

theorem outcome_bind (x : ExceptT ε (StateM σ) α) (f : α → ExceptT ε (StateM σ) β) (s : σ) :
    outcome (x >>= f) s = match outcome x s with
      | (.ok a, t) => outcome (f a) t
      | (.error e, t) => (.error e, t) := by
  show outcome (ExceptT.mk (ExceptT.bindCont f (outcome x s).1)) (outcome x s).2 = _
  rcases outcome x s with ⟨_ | _, t⟩
  · rfl
  · rfl

theorem outcome_bind_eq_ok_iff {b : β} : outcome (x >>= f) s = (.ok b, t) ↔
    ∃ a u, outcome x s = (.ok a, u) ∧ outcome (f a) u = (.ok b, t) := by
  rw [outcome_bind]
  rcases outcome x s with ⟨e | a, u⟩
  · simp
  · simp

theorem outcome_bind_eq_error_iff {e : ε} : outcome (x >>= f) s = (.error e, t) ↔
    outcome x s = (.error e, t) ∨
      ∃ a u, outcome x s = (.ok a, u) ∧ outcome (f a) u = (.error e, t) := by
  rw [outcome_bind]
  rcases outcome x s with ⟨e | a, u⟩
  · simp
  · simp

theorem outcome_pure (a : α) (s : σ) :
    outcome (pure a : ExceptT ε (StateM σ) α) s = (.ok a, s) := rfl

theorem outcome_lift_iff {x result : Except ε α} :
    outcome (liftM x : ExceptT ε (StateM σ) α) s = (result, t) ↔ x = result ∧ s = t :=
  Prod.ext_iff

theorem outcome_adapt (g : ε → ε') (x : ExceptT ε (StateM σ) α) (s : σ) :
    outcome (x.adapt g) s = ((outcome x s).1.mapError g, (outcome x s).2) := rfl

theorem outcome_adapt_eq_ok_iff {g : ε → ε'} {a : α} :
    outcome (x.adapt g) s = (.ok a, t) ↔ outcome x s = (.ok a, t) := by
  rw [outcome_adapt, Prod.mk.injEq, mapError_eq_ok_iff, Prod.ext_iff]

theorem outcome_adapt_eq_error_iff {g : ε → ε'} {e' : ε'} :
    outcome (x.adapt g) s = (.error e', t) ↔ ∃ e, outcome x s = (.error e, t) ∧ g e = e' := by
  simp only [outcome_adapt, mapError_eq_error_iff, Prod.ext_iff]
  constructor
  · rintro ⟨⟨e, he, hg⟩, ht⟩
    exact ⟨e, ⟨he, ht⟩, hg⟩
  · rintro ⟨e, ⟨he, ht⟩, hg⟩
    exact ⟨⟨e, he, hg⟩, ht⟩

end

end IntrospectSdl.Proofs.Chains
