import IntrospectSdl.Command.Run
import IntrospectSdl.Proofs.Command.Files
import IntrospectSdl.Proofs.Command.Stages
import IntrospectSdl.Proofs.Stripping.Ending

/-! # Command: all or nothing

A run goes through stages: it needs both paths, a text to convert, that the text is JSON, that the
JSON describes a schema, that the schema can be printed, and a place for the output (`Passes`). It
fails as the first stage that does not pass, and then changes nothing; if every stage passes, it
writes the converted text and changes nothing else (`run_all_or_nothing`). -/

namespace IntrospectSdl.Proofs.Command.Outcome

open IntrospectSdl.Command IntrospectSdl.Sdl IntrospectSdl.Proofs.Chains
open IntrospectSdl.Proofs.Command.Files IntrospectSdl.Proofs.Command.Stages
open IntrospectSdl.Proofs.Printing.Names IntrospectSdl.Proofs.Stripping.Ending

/-! ### Stages -/

/-- A text that is more than white space is there to be converted, in UTF-8. -/
def Supplies (src : Option String) (d : Directory) (text : String) : Prop :=
  ∃ path ∈ src, Holds d path text.toUTF8 ∧ Text.isBlank text = false

/-- What the stage of a status needs. -/
def Passes (src out : Option String) (d : Directory) : ExitStatus → Prop
  | .success => True
  | .usage => src.isSome = true ∧ out.isSome = true
  | .input => ∃ text, Supplies src d text
  | .parse => ∃ text, Supplies src d text ∧ ∃ value, Json.read text = .ok value
  | .shape => ∃ text, Supplies src d text ∧ ∃ s, readSchema text = .ok s
  | .print => ∃ text, Supplies src d text ∧
      ∃ s, readSchema text = .ok s ∧ ∃ printed, print .shown s = .ok printed
  | .output => ∃ path ∈ out, ∃ place, d.target path = .ok place

/-- **The first stage that fails**, in the order of the exit codes. -/
structure FailsFirst (src out : Option String) (d : Directory) (status : ExitStatus) : Prop where
  fails : ¬ Passes src out d status
  earlier : ∀ other : ExitStatus, other.code < status.code → Passes src out d other

theorem code_injective {a b : ExitStatus} (h : a.code = b.code) : a = b := by
  cases a <;> cases b <;> first | rfl | cases h

section

variable {src out : Option String} {d : Directory}

theorem FailsFirst.unique {a b : ExitStatus} (ha : FailsFirst src out d a)
    (hb : FailsFirst src out d b) : a = b := by
  rcases Nat.lt_trichotomy a.code b.code with hlt | heq | hlt
  · exact absurd (hb.earlier a hlt) ha.fails
  · exact code_injective heq
  · exact absurd (ha.earlier b hlt) hb.fails

theorem toUTF8_injective {a b : String} (h : a.toUTF8 = b.toUTF8) : a = b :=
  String.toByteArray_inj.mp h

theorem Supplies.unique {a b : String} (ha : Supplies src d a) (hb : Supplies src d b) : a = b := by
  obtain ⟨path, hpath, hholds, -⟩ := ha
  obtain ⟨path', hpath', hholds', -⟩ := hb
  obtain rfl : path = path' := Option.some_inj.mp (hpath.symm.trans hpath')
  exact toUTF8_injective (hholds.unique hholds')

theorem Supplies.exists_iff {text : String} (h : Supplies src d text) {p : String → Prop} :
    (∃ t, Supplies src d t ∧ p t) ↔ p text := by
  constructor
  · rintro ⟨t, ht, hp⟩
    exact ht.unique h ▸ hp
  · exact fun hp => ⟨text, h, hp⟩

theorem readSchema_eq_ok {text : String} {s : Schema} (h : readSchema text = .ok s) :
    ∃ value, Json.read text = .ok value := by
  obtain ⟨payload, hpayload, -⟩ := bind_eq_ok_iff.mp h
  obtain ⟨value, hvalue, -⟩ := bind_eq_ok_iff.mp hpayload
  exact ⟨value, mapError_eq_ok_iff.mp hvalue⟩

theorem passes_parse_of_shape (h : Passes src out d .shape) : Passes src out d .parse := by
  obtain ⟨text, htext, s, hs⟩ := h
  exact ⟨text, htext, readSchema_eq_ok hs⟩

theorem passes_shape_of_print (h : Passes src out d .print) : Passes src out d .shape := by
  obtain ⟨text, htext, s, hs, -⟩ := h
  exact ⟨text, htext, s, hs⟩

/-- A stage that is about the text needs all that the stages before it need. -/
theorem passes_of_code_le {status other : ExitStatus} (hgiven : Passes src out d .usage)
    (h : Passes src out d status) (hout : status ≠ .output) (hle : other.code ≤ status.code) :
    Passes src out d other := by
  -- The stages from here on are about the text, and each says that the one before it passes.
  have hparse : 4 ≤ status.code → Passes src out d .parse := by
    intro hcode
    cases status with
    | parse => exact h
    | shape => exact passes_parse_of_shape h
    | print => exact passes_parse_of_shape (passes_shape_of_print h)
    | output => exact absurd rfl hout
    | _ => exact absurd hcode (by decide)
  cases other with
  | success => trivial
  | usage => exact hgiven
  | input =>
    cases status with
    | input => exact h
    | success | usage => exact absurd hle (by decide)
    | _ =>
      obtain ⟨text, htext, -⟩ := hparse (by decide)
      exact ⟨text, htext⟩
  | parse => exact hparse hle
  | shape =>
    cases status with
    | shape => exact h
    | print => exact passes_shape_of_print h
    | output => exact absurd rfl hout
    | _ => exact absurd hle (by decide)
  | print =>
    cases status with
    | print => exact h
    | output => exact absurd rfl hout
    | _ => exact absurd hle (by decide)
  | output =>
    cases status with
    | output => exact h
    | _ => exact absurd hle (by decide)

theorem failsFirst_of {status next : ExitStatus} (hgiven : Passes src out d .usage)
    (h : Passes src out d status) (hout : status ≠ .output) (hcode : next.code = status.code + 1)
    (hfails : ¬ Passes src out d next) : FailsFirst src out d next := by
  refine ⟨hfails, fun other hlt => passes_of_code_le hgiven h hout ?_⟩
  omega

end

/-! ### Converting -/

theorem convert_eq_ok_iff {choice : DescriptionChoice} {text sdl : String} :
    convert choice text = .ok sdl ↔ ∃ s, readSchema text = .ok s ∧ ∃ printed,
      print .shown s = .ok printed ∧ String.ofList (choice.apply printed) = sdl := by
  unfold convert
  simp only [bind_eq_ok_iff, mapError_eq_ok_iff, pure, Except.pure, Except.ok.injEq]

theorem status_of_readSchema {text : String} {e : ConvertError} (h : readSchema text = .error e) :
    ((RunError.convert e).status = .parse ∧ ∀ value, Json.read text ≠ .ok value) ∨
      ((RunError.convert e).status = .shape ∧ ∃ value, Json.read text = .ok value) := by
  rcases bind_eq_error_iff.mp h with hpayload | ⟨payload, hpayload, himport⟩
  · rcases bind_eq_error_iff.mp hpayload with hjson | ⟨value, hvalue, hshape⟩
    · obtain ⟨error, herror, rfl⟩ := mapError_eq_error_iff.mp hjson
      refine Or.inl ⟨rfl, fun value hvalue => ?_⟩
      cases herror.symm.trans hvalue
    · obtain ⟨error, -, rfl⟩ := mapError_eq_error_iff.mp hshape
      exact Or.inr ⟨rfl, value, mapError_eq_ok_iff.mp hvalue⟩
  · obtain ⟨error, -, rfl⟩ := mapError_eq_error_iff.mp himport
    obtain ⟨value, hvalue, -⟩ := bind_eq_ok_iff.mp hpayload
    exact Or.inr ⟨rfl, value, mapError_eq_ok_iff.mp hvalue⟩

/-- A text that is not converted fails at one of three stages, and the error tells which. -/
theorem failsFirst_of_convert {src out : Option String} {d : Directory} {text : String}
    (hgiven : Passes src out d .usage) (htext : Supplies src d text) {choice : DescriptionChoice}
    {e : ConvertError} (h : convert choice text = .error e) :
    FailsFirst src out d (RunError.convert e).status := by
  rcases bind_eq_error_iff.mp h with hread | ⟨s, hs, hrest⟩
  · rcases status_of_readSchema hread with ⟨hstatus, hjson⟩ | ⟨hstatus, hjson⟩
    · have hinput : Passes src out d .input := ⟨text, htext⟩
      rw [hstatus]
      refine failsFirst_of hgiven hinput (by decide) rfl (htext.exists_iff.not.mpr ?_)
      rintro ⟨value, hvalue⟩
      exact hjson value hvalue
    · have hparse : Passes src out d .parse := htext.exists_iff.mpr hjson
      rw [hstatus]
      refine failsFirst_of hgiven hparse (by decide) rfl (htext.exists_iff.not.mpr ?_)
      rintro ⟨s, hs⟩
      cases hread.symm.trans hs
  · rcases bind_eq_error_iff.mp hrest with hprint | ⟨printed, -, hdone⟩
    · obtain ⟨error, herror, rfl⟩ := mapError_eq_error_iff.mp hprint
      have hshape : Passes src out d .shape := htext.exists_iff.mpr ⟨s, hs⟩
      refine failsFirst_of hgiven hshape (by decide) rfl (htext.exists_iff.not.mpr ?_)
      rintro ⟨s', hs', printed, hprinted⟩
      obtain rfl : s = s' := Except.ok.inj (hs.symm.trans hs')
      cases herror.symm.trans hprinted
    · cases hdone

/-! ### A request -/

theorem request_eq_ok_iff {src out : Option String} {keep : Bool} {r : Request} :
    Request.of src out keep = .ok r ↔ src = some r.src ∧ out = some r.out ∧
      r.choice = if keep then .keep else .strip := by
  obtain ⟨path, target, choice⟩ := r
  cases src <;> cases out <;> simp [Request.of, eq_comm]

theorem failsFirst_of_request {src out : Option String} {keep : Bool} {d : Directory} {e : RunError}
    (h : Request.of src out keep = .error e) : FailsFirst src out d e.status := by
  have husage : e.status = .usage ∧ ¬ Passes src out d .usage := by
    cases src with
    | none =>
      obtain rfl := Except.error.inj h
      exact ⟨rfl, fun hgiven => nomatch hgiven.1⟩
    | some path =>
      cases out with
      | none =>
        obtain rfl := Except.error.inj h
        exact ⟨rfl, fun hgiven => nomatch hgiven.2⟩
      | some target => cases h
  rw [husage.1]
  refine ⟨husage.2, fun other hlt => ?_⟩
  cases other with
  | success => trivial
  | _ => exact absurd hlt (by decide)

theorem fromUTF8?_eq_some_iff {content : ByteArray} {text : String} :
    String.fromUTF8? content = some text ↔ content = text.toUTF8 := by
  unfold String.fromUTF8?
  constructor
  · intro h
    split_ifs at h with hvalid
    rw [← Option.some_inj.mp h]
    rfl
  · rintro rfl
    rw [String.toUTF8_eq_toByteArray, dif_pos text.isValidUTF8]
    rfl

/-- A content that is read holds a text to be converted, or the input is at fault. -/
theorem supplies_or_input {r : Request} {d : Directory} {content : ByteArray}
    (h : d.read r.src = .ok content) :
    (∃ text, Supplies (some r.src) d text ∧ r.output content =
      (convert r.choice text).mapError RunError.convert >>= fun sdl =>
        pure (withFinalLineFeed sdl)) ∨
      (∀ text, ¬ Supplies (some r.src) d text) ∧
        ∃ e : RunError, r.output content = .error e ∧ e.status = .input := by
  have hsupplied : ∀ text, Supplies (some r.src) d text →
      content = text.toUTF8 ∧ Text.isBlank text = false := by
    rintro text ⟨path, hpath, hholds, hblank⟩
    obtain rfl := Option.some_inj.mp hpath
    exact ⟨(read_eq_ok_iff.mp h).unique hholds, hblank⟩
  unfold Request.output
  cases htext : String.fromUTF8? content with
  | none =>
    refine Or.inr ⟨fun text hsupplies => ?_, _, rfl, rfl⟩
    have hread := fromUTF8?_eq_some_iff.mpr (hsupplied text hsupplies).1
    cases htext.symm.trans hread
  | some text =>
    rw [fromUTF8?_eq_some_iff] at htext
    cases hblank : Text.isBlank text with
    | false =>
      exact Or.inl ⟨text, ⟨r.src, rfl, read_eq_ok_iff.mp (htext ▸ h), hblank⟩, by simp [hblank]⟩
    | true =>
      refine Or.inr ⟨fun other hsupplies => ?_, .noSchema r.src, by simp [hblank], rfl⟩
      obtain ⟨hother, hfilled⟩ := hsupplied other hsupplies
      obtain rfl := toUTF8_injective (htext.symm.trans hother)
      cases hblank.symm.trans hfilled

theorem supplies_of_output {r : Request} {d : Directory} {content : ByteArray} {written : String}
    (h : d.read r.src = .ok content) (hwritten : r.output content = .ok written) :
    ∃ text sdl, Supplies (some r.src) d text ∧ convert r.choice text = .ok sdl ∧
      withFinalLineFeed sdl = written := by
  rcases supplies_or_input h with ⟨text, htext, houtput⟩ | ⟨-, error, herror, -⟩
  · obtain ⟨sdl, hconvert, hsdl⟩ := bind_pure_eq_ok_iff.mp (houtput.symm.trans hwritten)
    exact ⟨text, sdl, htext, mapError_eq_ok_iff.mp hconvert, hsdl⟩
  · cases herror.symm.trans hwritten

theorem failsFirst_of_fails {r : Request} {d : Directory} {e : RunError} (h : Fails r d e) :
    FailsFirst (some r.src) (some r.out) d e.status := by
  have hgiven : Passes (some r.src) (some r.out) d .usage := ⟨rfl, rfl⟩
  cases h with
  | reading hread =>
    refine failsFirst_of hgiven hgiven (by decide) rfl ?_
    rintro ⟨text, path, hpath, hholds, -⟩
    obtain rfl := Option.some_inj.mp hpath
    cases hread.symm.trans (read_eq_ok_iff.mpr hholds)
  | converting hread hfails =>
    rcases supplies_or_input hread with ⟨text, htext, houtput⟩ | ⟨hnone, error, herror, hstatus⟩
    · rcases bind_eq_error_iff.mp (houtput.symm.trans hfails) with hconvert | ⟨sdl, -, hdone⟩
      · obtain ⟨error, herror, rfl⟩ := mapError_eq_error_iff.mp hconvert
        exact failsFirst_of_convert hgiven htext herror
      · cases hdone
    · obtain rfl := Except.error.inj (herror.symm.trans hfails)
      rw [hstatus]
      refine failsFirst_of hgiven hgiven (by decide) rfl ?_
      rintro ⟨text, htext⟩
      exact hnone text htext
  | writing hread hwritten hwrite =>
    obtain ⟨text, sdl, htext, hconvert, -⟩ := supplies_of_output hread hwritten
    have hprint : Passes (some r.src) (some r.out) d .print := by
      obtain ⟨s, hs, printed, hprinted, -⟩ := convert_eq_ok_iff.mp hconvert
      exact ⟨text, htext, s, hs, printed, hprinted⟩
    refine failsFirst_of hgiven hprint (by decide) rfl ?_
    rintro ⟨path, hpath, place, hplace⟩
    obtain rfl := Option.some_inj.mp hpath
    cases (write_eq_error_iff.mp hwrite).symm.trans hplace

/-! ### What is written -/

/-- A text as it is written: with a line feed behind it, unless it ends with one. -/
def Terminates (text written : String) : Prop :=
  (text.toList.getLast? = some '\n' ∧ written = text) ∨
    (text.toList.getLast? ≠ some '\n' ∧ written = text ++ "\n")

/-- A text ends with a line feed that does not follow another one. -/
def EndsInOneLineFeed (text : String) : Prop :=
  ∃ body : String, text = body ++ "\n" ∧ body.toList.getLast? ≠ some '\n'

theorem terminates_withFinalLineFeed (text : String) :
    Terminates text (withFinalLineFeed text) := by
  unfold withFinalLineFeed
  split_ifs with h
  · exact Or.inl ⟨h, rfl⟩
  · exact Or.inr ⟨h, String.push_eq_append '\n'⟩

theorem getLast?_convert_ne {choice : DescriptionChoice} {text sdl : String} {s : Schema}
    (h : convert choice text = .ok sdl) (hs : readSchema text = .ok s)
    (hn : ∀ name ∈ declaredNames s, '\n' ∉ name.toList) : sdl.toList.getLast? ≠ some '\n' := by
  obtain ⟨s', hs', printed, hprinted, rfl⟩ := convert_eq_ok_iff.mp h
  obtain rfl : s = s' := Except.ok.inj (hs.symm.trans hs')
  rw [String.toList_ofList]
  exact getLast?_apply_ne hprinted hn choice

/-- **What a run does that succeeds**: a text that was there is converted, and written with a line
feed at its end, of which there is only one if no name holds another. -/
structure Succeeds (src out : Option String) (keep : Bool) (before after : Directory) (size : Nat)
    (text sdl written : String) : Prop where
  supplied : Supplies src before text
  converted : convert (if keep then .keep else .strip) text = .ok sdl
  terminated : Terminates sdl written
  oneLineFeed : ∀ s, readSchema text = .ok s → (∀ name ∈ declaredNames s, '\n' ∉ name.toList) →
    EndsInOneLineFeed written
  file : ∃ path ∈ out, Written before after path written.toUTF8
  size : size = written.toUTF8.size

theorem succeeds_of_perform {src out : Option String} {keep : Bool} {r : Request}
    {d after : Directory} {size : Nat} (hr : Request.of src out keep = .ok r)
    (h : outcome (r.perform Directory.files) d = (.ok size, after)) :
    ∃ text sdl written, Succeeds src out keep d after size text sdl written := by
  obtain ⟨rfl, rfl, hchoice⟩ := request_eq_ok_iff.mp hr
  obtain ⟨input, written, hread, hwritten, hwrite, hsize⟩ := exists_of_perform h
  obtain ⟨text, sdl, htext, hconvert, rfl⟩ := supplies_of_output hread hwritten
  have hterminates := terminates_withFinalLineFeed sdl
  refine ⟨text, sdl, withFinalLineFeed sdl, ?_⟩
  exact
    { supplied := htext
      converted := hchoice ▸ hconvert
      terminated := hterminates
      oneLineFeed := by
        intro s hs hn
        have hlast := getLast?_convert_ne hconvert hs hn
        rcases hterminates with ⟨hend, -⟩ | ⟨-, hwritten⟩
        · exact absurd hend hlast
        · exact ⟨sdl, hwritten, hlast⟩
      file := ⟨r.out, rfl, written_of_write hwrite⟩
      size := hsize.symm }

theorem Succeeds.passes {src out : Option String} {keep : Bool} {before after : Directory}
    {size : Nat} {text sdl written : String}
    (h : Succeeds src out keep before after size text sdl written) (status : ExitStatus) :
    Passes src out before status := by
  obtain ⟨path, hpath, -, place, hplace, -⟩ := h.file
  obtain ⟨found, hfound, -⟩ := h.supplied
  have hgiven : Passes src out before .usage :=
    ⟨Option.isSome_iff_exists.mpr ⟨found, hfound⟩, Option.isSome_iff_exists.mpr ⟨path, hpath⟩⟩
  have hprint : Passes src out before .print := by
    obtain ⟨s, hs, printed, hprinted, -⟩ := convert_eq_ok_iff.mp h.converted
    exact ⟨text, h.supplied, s, hs, printed, hprinted⟩
  cases status with
  | output => exact ⟨path, hpath, place, hplace⟩
  | _ => exact passes_of_code_le hgiven hprint (by decide) (by decide)

/-! ### Runs -/

theorem run_eq (src out : Option String) (keep : Bool) (d : Directory) :
    run src out keep d = (outcome (runOn Directory.files src out keep) d).swap := rfl

theorem failsFirst_of_runOn {src out : Option String} {keep : Bool} {d after : Directory}
    {e : RunError} (h : outcome (runOn Directory.files src out keep) d = (.error e, after)) :
    FailsFirst src out d e.status := by
  rcases outcome_bind_eq_error_iff.mp h with hrequest | ⟨r, d', hrequest, hperform⟩
  · exact failsFirst_of_request (outcome_lift_iff.mp hrequest).1
  · obtain ⟨hr, rfl⟩ := outcome_lift_iff.mp hrequest
    obtain ⟨rfl, rfl, -⟩ := request_eq_ok_iff.mp hr
    exact failsFirst_of_fails (fails_of_perform hperform)

theorem succeeds_of_runOn {src out : Option String} {keep : Bool} {d after : Directory}
    {size : Nat} (h : outcome (runOn Directory.files src out keep) d = (.ok size, after)) :
    ∃ text sdl written, Succeeds src out keep d after size text sdl written := by
  obtain ⟨r, d', hrequest, hperform⟩ := outcome_bind_eq_ok_iff.mp h
  obtain ⟨hr, rfl⟩ := outcome_lift_iff.mp hrequest
  exact succeeds_of_perform hr hperform

theorem run_cases (src out : Option String) (keep : Bool) (d : Directory) :
    (∃ e, run src out keep d = (d, .error e) ∧ FailsFirst src out d e.status) ∨
      ∃ after size, run src out keep d = (after, .ok size) ∧
        ∃ text sdl written, Succeeds src out keep d after size text sdl written := by
  rw [run_eq]
  cases h : outcome (runOn Directory.files src out keep) d with
  | mk result after =>
    cases result with
    | error e =>
      have hafter : after = d :=
        failsCleanly_runOn keeps_read failsCleanly_write src out keep d after e h
      exact Or.inl ⟨e, by rw [hafter]; rfl, failsFirst_of_runOn h⟩
    | ok size => exact Or.inr ⟨after, size, rfl, succeeds_of_runOn h⟩

/-- **A run is all or nothing.** It fails with the status of the first stage that fails and then
leaves the directory as it was; it succeeds if every stage passes, and then writes the output and
leaves all else as it was. -/
theorem run_all_or_nothing (src out : Option String) (keep : Bool) (d : Directory) :
    (∀ status, (∃ e, (run src out keep d).2 = .error e ∧ e.status = status) ↔
      FailsFirst src out d status) ∧
    (∀ e, (run src out keep d).2 = .error e → (run src out keep d).1 = d) ∧
    ((∃ size, (run src out keep d).2 = .ok size) ↔ ∀ status, Passes src out d status) ∧
    ∀ size, (run src out keep d).2 = .ok size →
      ∃ text sdl written, Succeeds src out keep d (run src out keep d).1 size text sdl written := by
  rcases run_cases src out keep d with ⟨e, hrun, hfails⟩ | ⟨after, size, hrun, hsucceeds⟩
  · rw [hrun]
    refine ⟨fun status => ⟨?_, fun h => ⟨e, rfl, hfails.unique h⟩⟩, fun _ _ => rfl, ⟨?_, ?_⟩, ?_⟩
    · rintro ⟨e', he, rfl⟩
      exact Except.error.inj he ▸ hfails
    · rintro ⟨size, hsize⟩
      cases hsize
    · exact fun hall => absurd (hall e.status) hfails.fails
    · intro size hsize
      cases hsize
  · obtain ⟨text, sdl, written, h⟩ := hsucceeds
    rw [hrun]
    refine ⟨fun status => ⟨?_, fun hfails => absurd (h.passes status) hfails.fails⟩, ?_,
      ⟨fun _ => h.passes, fun _ => ⟨size, rfl⟩⟩, ?_⟩
    · rintro ⟨e, he, -⟩
      cases he
    · intro e he
      cases he
    · intro size' hsize
      obtain rfl : size = size' := Except.ok.inj hsize
      exact ⟨text, sdl, written, h⟩

/-- The exit codes of the stages. -/
example : [ExitStatus.usage, .input, .parse, .shape, .print, .output].map ExitStatus.code =
    [2, 3, 4, 5, 6, 7] := rfl

end IntrospectSdl.Proofs.Command.Outcome
