import IntrospectSdl.Command.Directory
import IntrospectSdl.Proofs.Chains

/-! # Command: files

Reading gives the content of the file that a path leads to (`read_eq_ok_iff`). Writing changes what
stands at the place that the path leads to, and nothing else; what was written is what is read there
afterwards (`written_of_write`), since the way to a place does not lead through it. -/

namespace IntrospectSdl.Proofs.Command.Files

open IntrospectSdl.Command IntrospectSdl.Command.Directory IntrospectSdl.Proofs.Chains

/-- A path leads to a file with this content. -/
structure Holds (d : Directory) (path : String) (content : ByteArray) : Prop where
  file : ∃ place, d.resolve path = .ok place ∧ d.entry? place = some (.file content)
  noSlash : endsInSlash path = false

theorem read_eq_ok_iff {d : Directory} {path : String} {content : ByteArray} :
    d.read path = .ok content ↔ Holds d path content := by
  unfold Directory.read
  rw [bind_eq_ok_iff]
  constructor
  · rintro ⟨place, hplace, h⟩
    split at h
    · cases h
    · cases h
    · next found hentry =>
      split_ifs at h with hslash
      obtain rfl := Except.ok.inj h
      exact ⟨⟨place, hplace, hentry⟩, Bool.eq_false_iff.mpr hslash⟩
  · rintro ⟨⟨place, hplace, hentry⟩, hslash⟩
    refine ⟨place, hplace, ?_⟩
    rw [hentry]
    simp [hslash]

theorem Holds.unique {d : Directory} {path : String} {a b : ByteArray} (ha : Holds d path a)
    (hb : Holds d path b) : a = b := by
  have hread := (read_eq_ok_iff.mpr ha).symm.trans (read_eq_ok_iff.mpr hb)
  exact Except.ok.inj hread

theorem target_eq_ok_iff {d : Directory} {path : String} {place : Place} :
    d.target path = .ok place ↔ d.resolve path = .ok place ∧ endsInSlash path = false ∧
      d.entry? place ≠ some .directory := by
  unfold Directory.target
  rw [bind_eq_ok_iff]
  constructor
  · rintro ⟨found, hfound, h⟩
    split_ifs at h with hc
    obtain rfl := Except.ok.inj h
    rw [Bool.or_eq_true, decide_eq_true_eq, not_or, Bool.not_eq_true] at hc
    exact ⟨hfound, hc⟩
  · rintro ⟨hplace, hslash, hentry⟩
    exact ⟨place, hplace, by simp [hslash, hentry]⟩

/-! ### One entry more -/

theorem lookup_filter_ne {place other : Place} (h : other ≠ place) :
    ∀ entries : List (Place × Entry),
      (entries.filter fun e => e.1 ≠ place).lookup other = entries.lookup other
  | [] => rfl
  | (found, entry) :: entries => by
    have ih := lookup_filter_ne h entries
    by_cases hfound : found = place
    · have hother : (other == found) = false := by simpa [hfound] using h
      rw [List.filter_cons_of_neg (by simpa using hfound), List.lookup_cons, hother]
      exact ih
    · rw [List.filter_cons_of_pos (by simpa using hfound), List.lookup_cons, List.lookup_cons, ih]

theorem entry_put_self {d : Directory} {place : Place} {entry : Entry}
    (h : d.entry? place ≠ some .directory) :
    Directory.entry? (d.put place entry) place = some entry := by
  have haround : Place.isAround place ≠ true := fun hp => h (if_pos hp)
  unfold entry? put
  rw [if_neg haround]
  exact List.lookup_cons_self

/-- **Nothing else changes.** -/
theorem entry_put_of_ne (d : Directory) {place other : Place} (entry : Entry)
    (h : other ≠ place) : Directory.entry? (d.put place entry) other = d.entry? other := by
  have hother : (other == place) = false := by simpa using h
  unfold entry? put
  rw [List.lookup_cons, hother, lookup_filter_ne h]

/-- A way that is open stays open when a file is put at a place where no directory stands. -/
theorem follow_put {d : Directory} {place : Place} (content : ByteArray)
    (h : d.entry? place ≠ some .directory) {names : List String} {start reached : Place}
    (hfollow : d.follow start names = .ok reached) :
    (d.put place (.file content)).follow start names = .ok reached := by
  induction names generalizing start with
  | nil => exact hfollow
  | cons name names ih =>
    rw [follow] at hfollow ⊢
    split at hfollow
    · cases hfollow
    · cases hfollow
    · next hstart =>
      have hne : start ≠ place := fun heq => h (heq ▸ hstart)
      rw [entry_put_of_ne d _ hne, hstart]
      dsimp only
      split_ifs at hfollow ⊢
      · exact ih hfollow
      · exact ih hfollow
      · exact ih hfollow

theorem resolve_put {d : Directory} {place reached : Place} (content : ByteArray)
    (h : d.entry? place ≠ some .directory) {path : String} (hpath : d.resolve path = .ok reached) :
    (d.put place (.file content)).resolve path = .ok reached := by
  unfold resolve at hpath ⊢
  split_ifs at hpath ⊢
  exact follow_put content h hpath

/-! ### Writing -/

/-- A file has been written: it stands where the path leads, its content is read from the path, and
what stands at other places is what stood there before. -/
structure Written (before after : Directory) (path : String) (content : ByteArray) : Prop where
  holds : Holds after path content
  changed : ∃ place, before.target path = .ok place ∧ after.entry? place = some (.file content) ∧
    ∀ other, other ≠ place → after.entry? other = before.entry? other

theorem written_of_write {before after : Directory} {path : String} {content : ByteArray}
    (h : before.write path content = .ok after) : Written before after path content := by
  obtain ⟨place, htarget, rfl⟩ := bind_pure_eq_ok_iff.mp h
  obtain ⟨hplace, hslash, hentry⟩ := target_eq_ok_iff.mp htarget
  have hself : Directory.entry? (before.put place (.file content)) place = some (.file content) :=
    entry_put_self hentry
  refine ⟨⟨⟨place, resolve_put content hentry hplace, hself⟩, hslash⟩, place, htarget, hself, ?_⟩
  intro other hother
  exact entry_put_of_ne before _ hother

/-- Writing fails only because the path does not lead to where a file can stand. -/
theorem write_eq_error_iff {d : Directory} {path : String} {content : ByteArray} {e : FileError} :
    d.write path content = .error e ↔ d.target path = .error e := by
  unfold Directory.write
  rw [bind_eq_error_iff]
  exact or_iff_left fun ⟨place, _, h⟩ => nomatch h

end IntrospectSdl.Proofs.Command.Files
