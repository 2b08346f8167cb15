import IntrospectSdl.Command.Run
import IntrospectSdl.Proofs.Chains

/-! # Command: the order of the stages

A run reads, converts and writes, and what it does to the files is done by its stages. Reading keeps
them (`Keeps`), and so does writing if it fails (`FailsCleanly`). Since nothing that comes before
writing changes the files, and nothing that comes after it can fail, a run that fails has changed
nothing: not in a directory, nor anywhere else where files are read and written in this way
(`failsCleanly_runOn`). In a directory, a request that succeeds has passed all its stages
(`exists_of_perform`), and one that fails has failed at one of them (`fails_of_perform`). -/

namespace IntrospectSdl.Proofs.Command.Stages

open IntrospectSdl.Command IntrospectSdl.Proofs.Chains

/-! ### What actions keep -/

section

variable {α β ε ε' σ : Type} {x : ExceptT ε (StateM σ) α}

/-- An action that leaves the state as it was, whether it succeeds or fails. -/
def Keeps (x : ExceptT ε (StateM σ) α) : Prop := ∀ s, (outcome x s).2 = s

/-- An action that leaves the state as it was if it fails. -/
def FailsCleanly (x : ExceptT ε (StateM σ) α) : Prop :=
  ∀ s t e, outcome x s = (.error e, t) → t = s

theorem Keeps.eq (h : Keeps x) {s t : σ} {result : Except ε α}
    (hx : outcome x s = (result, t)) : t = s := by
  rw [← h s, hx]

theorem keeps_lift (x : Except ε α) : Keeps (liftM x : ExceptT ε (StateM σ) α) := fun _ => rfl

theorem Keeps.adapt (h : Keeps x) (g : ε → ε') : Keeps (x.adapt g) := h

theorem FailsCleanly.adapt (h : FailsCleanly x) (g : ε → ε') : FailsCleanly (x.adapt g) := by
  intro s t e hx
  obtain ⟨e', he', -⟩ := outcome_adapt_eq_error_iff.mp hx
  exact h s t e' he'

/-- What is kept so far is kept if the next action fails, too. -/
theorem Keeps.bind (h : Keeps x) {f : α → ExceptT ε (StateM σ) β}
    (hf : ∀ a, FailsCleanly (f a)) : FailsCleanly (x >>= f) := by
  intro s t e hfails
  rcases outcome_bind_eq_error_iff.mp hfails with hx | ⟨a, u, hx, hrest⟩
  · exact h.eq hx
  · have hu : u = s := h.eq hx
    exact (hf a u t e hrest).trans hu

/-- Nothing fails behind the last action that can. -/
theorem FailsCleanly.bind_pure (h : FailsCleanly x) (g : α → β) :
    FailsCleanly (x >>= fun a => pure (g a)) := by
  intro s t e hfails
  rcases outcome_bind_eq_error_iff.mp hfails with hx | ⟨a, u, -, hrest⟩
  · exact h s t e hx
  · rw [outcome_pure] at hrest
    cases hrest

/-! ### A run -/

variable {files : Files (StateM σ)}

theorem failsCleanly_perform (hread : ∀ path, Keeps (files.read path))
    (hwrite : ∀ path content, FailsCleanly (files.write path content)) (r : Request) :
    FailsCleanly (r.perform files) := by
  refine ((hread r.src).adapt _).bind fun input => (keeps_lift (r.output input)).bind fun text => ?_
  exact ((hwrite r.out text.toUTF8).adapt _).bind_pure _

/-- **A run that fails changes nothing**, since it writes last. -/
theorem failsCleanly_runOn (hread : ∀ path, Keeps (files.read path))
    (hwrite : ∀ path content, FailsCleanly (files.write path content))
    (src out : Option String) (keep : Bool) : FailsCleanly (runOn files src out keep) :=
  (keeps_lift (Request.of src out keep)).bind (failsCleanly_perform hread hwrite)

end

/-! ### Stages in a directory -/

variable {path : String} {content : ByteArray} {r : Request} {d after : Directory}

theorem outcome_read_iff {result : Except FileError ByteArray} :
    outcome (Directory.files.read path) d = (result, after) ↔ d.read path = result ∧ d = after :=
  Prod.ext_iff

theorem outcome_write (path : String) (content : ByteArray) (d : Directory) :
    outcome (Directory.files.write path content) d = match d.write path content with
      | .ok after => (.ok (), after)
      | .error e => (.error e, d) := rfl

theorem outcome_write_eq_ok_iff {done : Unit} :
    outcome (Directory.files.write path content) d = (.ok done, after) ↔
      d.write path content = .ok after := by
  rw [outcome_write]
  cases d.write path content with
  | ok written => simp
  | error e => simp

theorem outcome_write_eq_error_iff {e : FileError} :
    outcome (Directory.files.write path content) d = (.error e, after) ↔
      d.write path content = .error e ∧ after = d := by
  rw [outcome_write]
  cases d.write path content with
  | ok written => simp
  | error e => simp [eq_comm]

theorem keeps_read (path : String) : Keeps (Directory.files.read path) := fun _ => rfl

theorem failsCleanly_write (path : String) (content : ByteArray) :
    FailsCleanly (Directory.files.write path content) :=
  fun _ _ _ h => (outcome_write_eq_error_iff.mp h).2

/-- How a request fails: its input cannot be read or converted, or its output cannot be written. -/
inductive Fails (r : Request) (d : Directory) : RunError → Prop where
  | reading {error : FileError} (read : d.read r.src = .error error) :
    Fails r d (.unreadable r.src error)
  | converting {input : ByteArray} {e : RunError} (read : d.read r.src = .ok input)
    (output : r.output input = .error e) : Fails r d e
  | writing {input : ByteArray} {text : String} {error : FileError}
    (read : d.read r.src = .ok input) (output : r.output input = .ok text)
    (write : d.write r.out text.toUTF8 = .error error) : Fails r d (.unwritable r.out error)

theorem fails_of_perform {e : RunError}
    (h : outcome (r.perform Directory.files) d = (.error e, after)) : Fails r d e := by
  rcases outcome_bind_eq_error_iff.mp h with hread | ⟨input, d₁, hread, hrest⟩
  · obtain ⟨error, herror, rfl⟩ := outcome_adapt_eq_error_iff.mp hread
    exact .reading (outcome_read_iff.mp herror).1
  · obtain ⟨hinput, rfl⟩ := outcome_read_iff.mp (outcome_adapt_eq_ok_iff.mp hread)
    rcases outcome_bind_eq_error_iff.mp hrest with houtput | ⟨text, d₂, houtput, hwrite⟩
    · exact .converting hinput (outcome_lift_iff.mp houtput).1
    · obtain ⟨htext, rfl⟩ := outcome_lift_iff.mp houtput
      rcases outcome_bind_eq_error_iff.mp hwrite with hfails | ⟨done, d₃, -, hdone⟩
      · obtain ⟨error, herror, rfl⟩ := outcome_adapt_eq_error_iff.mp hfails
        exact .writing hinput htext (outcome_write_eq_error_iff.mp herror).1
      · cases hdone

theorem exists_of_perform {size : Nat}
    (h : outcome (r.perform Directory.files) d = (.ok size, after)) : ∃ input text,
      d.read r.src = .ok input ∧ r.output input = .ok text ∧
        d.write r.out text.toUTF8 = .ok after ∧ text.utf8ByteSize = size := by
  obtain ⟨input, d₁, hread, hrest⟩ := outcome_bind_eq_ok_iff.mp h
  obtain ⟨hinput, rfl⟩ := outcome_read_iff.mp (outcome_adapt_eq_ok_iff.mp hread)
  obtain ⟨text, d₂, houtput, hwrite⟩ := outcome_bind_eq_ok_iff.mp hrest
  obtain ⟨htext, rfl⟩ := outcome_lift_iff.mp houtput
  obtain ⟨done, d₃, hfile, hdone⟩ := outcome_bind_eq_ok_iff.mp hwrite
  obtain ⟨hsize, rfl⟩ := Prod.mk.inj hdone
  have hfile := outcome_write_eq_ok_iff.mp (outcome_adapt_eq_ok_iff.mp hfile)
  exact ⟨input, text, hinput, htext, hfile, Except.ok.inj hsize⟩

end IntrospectSdl.Proofs.Command.Stages
