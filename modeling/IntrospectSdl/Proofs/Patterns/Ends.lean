import Mathlib.Data.List.Basic
import Mathlib.Logic.Relation
import IntrospectSdl.Sdl.Pattern

/-! # Patterns: where a match can end

The places at which a match can end obey one equation for each kind of pattern. The one that needs a
proof is that of a repetition: its bound on the number of rounds is no bound, since each round takes
something, and so a repetition is a round followed by the same repetition (`ends_many`). From it
come the two laws that proofs about patterns use: a repetition reaches what rounds in turn reach
(`mem_ends_many_iff`), and a greedy repetition of one class, followed by something that cannot begin
in the class, takes the whole run and never gives any of it back (`ends_run_seq`). -/

namespace IntrospectSdl.Proofs.Patterns.Ends

open IntrospectSdl.Sdl IntrospectSdl.Sdl.Pattern
open Relation (ReflTransGen)

theorem ends_seq (p q : Pattern) (c : Cursor) :
    (Pattern.seq p q).ends c = (p.ends c).flatMap q.ends := rfl

theorem ends_seq_assoc (p q r : Pattern) (c : Cursor) :
    (Pattern.seq p (.seq q r)).ends c = (Pattern.seq (.seq p q) r).ends c :=
  List.flatMap_assoc.symm

theorem ends_one_nil (belongs : Char → Bool) (atLineStart : Bool) :
    (Pattern.one belongs).ends ⟨atLineStart, []⟩ = [] := rfl

theorem ends_one_cons (belongs : Char → Bool) (atLineStart : Bool) (x : Char) (rest : List Char) :
    (Pattern.one belongs).ends ⟨atLineStart, x :: rest⟩ =
      if belongs x then [⟨x == '\n', rest⟩] else [] := rfl

/-! ### Repetitions -/

section

variable {reluctant : Bool}

theorem rounds_of_rest_nil {round : Cursor → List Cursor} {c : Cursor} (h : c.rest.length = 0)
    (n : Nat) : rounds reluctant round n c = [c] := by
  cases n with
  | zero => rfl
  | succ n => simp [rounds, h]

/-- As many rounds as there are characters left are enough. -/
theorem rounds_eq_of_le {round : Cursor → List Cursor} {n m : Nat} {c : Cursor}
    (hn : c.rest.length ≤ n) (hm : c.rest.length ≤ m) :
    rounds reluctant round n c = rounds reluctant round m c := by
  induction n generalizing m c with
  | zero => rw [rounds_of_rest_nil (by omega), rounds_of_rest_nil (by omega)]
  | succ n ih =>
    cases m with
    | zero => rw [rounds_of_rest_nil (by omega), rounds_of_rest_nil (by omega)]
    | succ m =>
      have hfurther : ((round c).filter fun d => d.rest.length < c.rest.length).flatMap
            (rounds reluctant round n) =
          ((round c).filter fun d => d.rest.length < c.rest.length).flatMap
            (rounds reluctant round m) := by
        refine List.flatMap_congr fun d hd => ?_
        have hlt : d.rest.length < c.rest.length := by simpa using (List.mem_filter.mp hd).2
        exact ih (by omega) (by omega)
      rw [rounds, rounds, hfurther]

/-- **A repetition is a round and then the same repetition**, or nothing. -/
theorem ends_many (p : Pattern) (c : Cursor) :
    (Pattern.many reluctant p).ends c =
      let further := ((p.ends c).filter fun d => d.rest.length < c.rest.length).flatMap
        (Pattern.many reluctant p).ends
      if reluctant then c :: further else further ++ [c] := by
  have hbound : (Pattern.many reluctant p).ends c =
      rounds reluctant p.ends (c.rest.length + 1) c :=
    rounds_eq_of_le (Nat.le_refl _) (Nat.le_succ _)
  have hfurther : ((p.ends c).filter fun d => d.rest.length < c.rest.length).flatMap
        (rounds reluctant p.ends c.rest.length) =
      ((p.ends c).filter fun d => d.rest.length < c.rest.length).flatMap
        (Pattern.many reluctant p).ends := by
    refine List.flatMap_congr fun d hd => ?_
    have hlt : d.rest.length < c.rest.length := by simpa using (List.mem_filter.mp hd).2
    exact rounds_eq_of_le (by omega) (Nat.le_refl _)
  rw [hbound, rounds, hfurther]

/-- One round of a repetition, which takes something. -/
def Round (p : Pattern) (c d : Cursor) : Prop := d ∈ p.ends c ∧ d.rest.length < c.rest.length

theorem mem_ends_many_cases {p : Pattern} {c d : Cursor} :
    d ∈ (Pattern.many reluctant p).ends c ↔
      d = c ∨ ∃ m, Round p c m ∧ d ∈ (Pattern.many reluctant p).ends m := by
  rw [ends_many]
  cases reluctant <;> simp [Round, or_comm, and_assoc]

/-- **A repetition reaches what rounds in turn reach.** -/
theorem mem_ends_many_iff {p : Pattern} {c d : Cursor} :
    d ∈ (Pattern.many reluctant p).ends c ↔ ReflTransGen (Round p) c d := by
  constructor
  · -- The induction is on how much is left, of which each round takes something.
    intro h
    induction hlen : c.rest.length using Nat.strongRecOn generalizing c with
    | ind n ih =>
      rcases mem_ends_many_cases.mp h with rfl | ⟨m, hround, hm⟩
      · exact .refl
      · exact .head hround (ih _ (hlen ▸ hround.2) hm rfl)
  · intro h
    induction h using ReflTransGen.head_induction_on with
    | refl => exact mem_ends_many_cases.mpr (.inl rfl)
    | head hround _ ih => exact mem_ends_many_cases.mpr (.inr ⟨_, hround, ih⟩)

end

/-- **A greedy run gives nothing back** to a pattern that cannot begin with what is in the run. -/
theorem ends_run_seq {belongs : Char → Bool} {q : Pattern}
    (hq : ∀ atLineStart x rest, belongs x = true → q.ends ⟨atLineStart, x :: rest⟩ = [])
    (atLineStart : Bool) (text : List Char) :
    ∃ after, (Pattern.seq (.many false (.one belongs)) q).ends ⟨atLineStart, text⟩ =
      q.ends ⟨after, text.dropWhile belongs⟩ := by
  induction text generalizing atLineStart with
  | nil => exact ⟨atLineStart, by simp [ends_seq, ends_many, ends_one_nil]⟩
  | cons x text ih =>
    cases hx : belongs x with
    | false => exact ⟨atLineStart, by simp [ends_seq, ends_many, ends_one_cons, hx]⟩
    | true =>
      obtain ⟨after, hafter⟩ := ih (x == '\n')
      refine ⟨after, ?_⟩
      rw [ends_seq] at hafter
      rw [ends_seq, ends_many, ends_one_cons, List.dropWhile_cons_of_pos hx, ← hafter]
      simp [hx, hq atLineStart x text hx]

/-! ### The preferred match -/

/-- What follows the preferred match at a place. -/
def afterMatch (p : Pattern) (c : Cursor) : Option (List Char) := (p.ends c).head?.map Cursor.rest

theorem matchLength_eq (p : Pattern) (c : Cursor) :
    p.matchLength c = (afterMatch p c).elim 0 fun rest => c.rest.length - rest.length := by
  rw [matchLength, afterMatch]
  cases p.ends c <;> rfl

theorem afterMatch_seq (p q : Pattern) (c : Cursor) :
    afterMatch (.seq p q) c = (p.ends c).findSome? fun d => afterMatch q d := by
  rw [afterMatch, ends_seq, List.head?_flatMap, List.map_findSome?]
  rfl

/-- If a match can end at one place only, what is preferred after it is preferred at that place. -/
theorem afterMatch_seq_of_forall_eq {p q : Pattern} {c d : Cursor} (hd : d ∈ p.ends c)
    (h : ∀ e ∈ p.ends c, e = d) : afterMatch (.seq p q) c = afterMatch q d := by
  rw [afterMatch_seq, List.eq_replicate_of_mem h]
  have hpos : 0 < (p.ends c).length := List.length_pos_of_mem hd
  obtain ⟨n, hn⟩ : ∃ n, (p.ends c).length = n + 1 := ⟨_, (Nat.succ_pred_eq_of_pos hpos).symm⟩
  rw [hn]
  cases hq : afterMatch q d with
  | none => simp [hq]
  | some rest => simp [List.replicate_succ, hq]

/-- What is preferred after a reluctant repetition is what can follow at once, and otherwise what is
preferred after one more round. -/
theorem afterMatch_reluctant (p q : Pattern) (c : Cursor) :
    afterMatch (.seq (.many true p) q) c =
      (afterMatch q c).or (((p.ends c).filter fun d => d.rest.length < c.rest.length).findSome?
        fun d => afterMatch (.seq (.many true p) q) d) := by
  have hends : (Pattern.seq (.many true p) q).ends c =
      q.ends c ++ ((p.ends c).filter fun d => d.rest.length < c.rest.length).flatMap
        (Pattern.seq (.many true p) q).ends := by
    rw [ends_seq, ends_many]
    simp only [↓reduceIte, List.flatMap_cons, List.flatMap_assoc]
    rfl
  rw [afterMatch, hends, List.head?_append, List.head?_flatMap, Option.map_or, List.map_findSome?]
  rfl

end IntrospectSdl.Proofs.Patterns.Ends
