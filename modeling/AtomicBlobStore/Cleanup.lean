/-
  STALE CLEANUP deletes exactly what it may, and reports everything.

  The directory is read once, at one moment; every entry of the listing may be unreadable, and every
  call for an entry may fail.  A file carries a time of its last change, or one that cannot be told;
  times and ages are counted in one unit, and a time may be later than the moment.

  1. **What is expected** — `Eligible` says which files may be deleted, `mentioned` which names a
     report has to give, with repetitions.

  2. **One entry** — `Cleaned` relates the entries done so far to the report and to the directory;
     each way through the body of the loop is one lemma about it (`Cleaned.addUnreadable`, `.ignore`,
     `.addFailure`, `.addSkipped`, `.addRemoved`), and `cleaned_entry` goes through them.

  3. **The whole listing** — by induction on it (`cleaned_entries`), whatever it lists and however
     often; the program has no loop besides, so it returns (`straight_cleanup`).
-/
import AtomicBlobStore.Jobs

namespace AtomicBlobStore

open FsM (ask fail)

/-! ## What is expected

  A report lists what was deleted, what was skipped and what failed, and this section says which of
  the three an entry belongs to.  The order in which the directory lists its entries does not matter. -/

section Expected

variable (config : StoreConfig) (modified : FileName → Option Nat) (moment minimumAge : Nat)

/-- A name that a cleanup looks at. -/
def Owned (name : FileName) : Prop :=
  isOwnedTemporaryFilename name config.format.filenameSuffix = true

instance : DecidablePred (Owned config) := fun _ => inferInstanceAs (Decidable (_ = true))

/-- The time of the last change is known, it has passed, and it passed long enough ago. -/
def OldEnough (name : FileName) : Prop :=
  ∃ time, modified name = some time ∧ time ≤ moment ∧ minimumAge ≤ moment - time

/-- A file that a cleanup may delete. -/
structure Eligible (disk : Disk) (name : FileName) : Prop where
  /-- It has a staging name, -/
  owned : Owned config name
  /-- is a regular file, -/
  regular : ∃ content, disk.entry name = some (.file content)
  /-- and has not been touched for long enough. -/
  old : OldEnough modified moment minimumAge name

/-- The names of the entries that could be read. -/
def listedNames (listing : List (Except IoError FileName)) : List FileName :=
  listing.filterMap Except.toOption

/-- How many entries could not be read. -/
def unreadable (listing : List (Except IoError FileName)) : Nat :=
  listing.countP fun entry => entry.toOption.isNone

/-- What stands for an entry that could not be read. -/
def directoryEntry : FileName := "<directory-entry>".toList

/-- What a report on a listing gives. -/
def mentioned (listing : List (Except IoError FileName)) : List FileName :=
  (listedNames listing).filter (Owned config ·) ++ List.replicate (unreadable listing) directoryEntry

/-- What a report gives. -/
def CleanupReport.identifiers (report : CleanupReport) : List FileName :=
  report.removed ++ report.skipped ++ report.failures.map (·.identifier)

/-- The directory as it was, but for files that may be deleted. -/
def Spared (disk : Disk) (w : JobWorld) : Prop :=
  ∀ name, w.disk.entry name = disk.entry name ∨
    Eligible config modified moment minimumAge disk name ∧ w.disk.entry name = none

/-- What a report says of the entries done and of the directory. -/
structure Cleaned (fault : FsCall → IoError → Prop) (listing : List (Except IoError FileName))
    (disk : Disk) (report : CleanupReport) (w : JobWorld) : Prop where
  /-- Every owned name and every unreadable entry once for each time it is listed, and nothing
      else. -/
  reported : report.identifiers.Perm (mentioned config listing)
  /-- Only what may be deleted was deleted. -/
  removed : ∀ name ∈ report.removed, Eligible config modified moment minimumAge disk name
  /-- What was skipped is a regular file, and not old enough. -/
  skipped : ∀ name ∈ report.skipped, (∃ content, disk.entry name = some (.file content)) ∧
    ¬OldEnough modified moment minimumAge name
  /-- What may be deleted and was not is a failure, with the error that its metadata or its removal
      met. -/
  excused : ∀ name ∈ listedNames listing, Eligible config modified moment minimumAge disk name →
    name ∉ report.removed → ∃ source, ⟨name, source⟩ ∈ report.failures ∧
      (fault (.symlinkMetadata name) source ∨ fault (.deleteFile name) source)
  /-- What was removed is gone, and everything else is as it was. -/
  remaining : ∀ name, w.disk.entry name =
    if name ∈ report.removed then none else disk.entry name

end Expected

/-- The answers of one moment: the listing, and the times that the files carry. -/
def Observed (modified : FileName → Option Nat) (moment : Nat)
    (listing : List (Except IoError FileName)) : (c : FsCall) → c.Answer → Prop
  | .symlinkMetadata name, .ok found => found.modified = modified name
  | .now, r => r = moment
  | .readDirectory, r => r = .ok listing
  | _, _ => True

/-- The environment of a cleanup whose directory could be opened. -/
def Dated (fault : FsCall → IoError → Prop) (modified : FileName → Option Nat) (moment : Nat)
    (listing : List (Except IoError FileName)) : Environment FsInterface JobWorld :=
  fun c w r w' => Fs fault c w r w' ∧ Observed modified moment listing c r

section Listings

variable {config : StoreConfig}

theorem listedNames_append (done : List (Except IoError FileName))
    (entry : Except IoError FileName) :
    listedNames (done ++ [entry]) = listedNames done ++ entry.toOption.toList := by
  unfold listedNames
  rw [List.filterMap_append]
  cases entry <;> rfl

theorem unreadable_append (done : List (Except IoError FileName))
    (entry : Except IoError FileName) :
    unreadable (done ++ [entry]) = unreadable done + if entry.toOption.isNone then 1 else 0 := by
  unfold unreadable
  rw [List.countP_append, List.countP_singleton]

/-- The stand-in for an unreadable entry is no staging name: it has no dots. -/
theorem not_owned_directoryEntry : ¬Owned config directoryEntry := by
  intro h
  have hdots := dots_owned h
  have : dots directoryEntry = 0 := by decide
  omega

/-- One more unreadable entry. -/
theorem mentioned_unreadable (done : List (Except IoError FileName)) (source : IoError) :
    (mentioned config (done ++ [.error source])).Perm (directoryEntry :: mentioned config done) := by
  rw [mentioned, listedNames_append, unreadable_append]
  show ((listedNames done ++ []).filter _ ++ List.replicate (unreadable done + 1) _).Perm _
  rw [List.append_nil, List.replicate_succ]
  exact List.perm_middle

/-- One more owned name. -/
theorem mentioned_owned {name : FileName} (h : Owned config name)
    (done : List (Except IoError FileName)) :
    (mentioned config (done ++ [.ok name])).Perm (name :: mentioned config done) := by
  rw [mentioned, listedNames_append, unreadable_append]
  show ((listedNames done ++ [name]).filter _ ++ List.replicate (unreadable done + 0) _).Perm _
  rw [List.filter_append, List.filter_singleton, decide_eq_true h, List.append_assoc]
  exact List.perm_middle

/-- One more name of somebody else. -/
theorem mentioned_foreign {name : FileName} (h : ¬Owned config name)
    (done : List (Except IoError FileName)) :
    mentioned config (done ++ [.ok name]) = mentioned config done := by
  rw [mentioned, listedNames_append, unreadable_append]
  show (listedNames done ++ [name]).filter _ ++ List.replicate (unreadable done + 0) _ = _
  rw [List.filter_append, List.filter_singleton, decide_eq_false h]
  exact congrArg (· ++ _) (List.append_nil _)

/-- **A name that is listed once is reported once.** -/
theorem count_mentioned {name : FileName} (howned : Owned config name)
    (listing : List (Except IoError FileName)) :
    (mentioned config listing).count name = (listedNames listing).count name := by
  have hne : directoryEntry ≠ name := by
    rintro rfl
    exact not_owned_directoryEntry howned
  rw [mentioned, List.count_append, List.count_replicate, if_neg (by simpa using hne), Nat.add_zero]
  exact List.count_filter (decide_eq_true howned)

end Listings

/-! ## One entry

  The invariant speaks of the entries done so far, and a name may have come twice.  The second time
  its file may be gone, and then the report has the name twice: once as deleted, and once as a
  failure. -/

/-- An error about an entry that is there is a fault. -/
theorem lookupError_fault {fault : FsCall → IoError → Prop} {c : FsCall} {disk : Disk}
    {name : FileName} {node : Node} {e : IoError} (hentry : disk.entry name = some node)
    (h : LookupError fault c disk name e) : fault c e := by
  unfold LookupError at h
  split at h
  · rw [hentry] at h
    nomatch h
  · refine h.resolve_right fun hdirectory => ?_
    rw [Disk.isDirectory_of_entry hentry] at hdirectory
    nomatch hdirectory

section Entries

variable {config : StoreConfig} {fault : FsCall → IoError → Prop}
  {modified : FileName → Option Nat} {moment minimumAge : Nat}
  {done : List (Except IoError FileName)} {disk : Disk} {report : CleanupReport} {w : JobWorld}
  {name : FileName}

theorem mem_listedNames_append {other : FileName} :
    name ∈ listedNames (done ++ [.ok other]) ↔ name ∈ listedNames done ∨ name = other := by
  rw [listedNames_append]
  exact List.mem_append.trans (or_congr Iff.rfl List.mem_singleton)

namespace Cleaned

theorem spared (h : Cleaned config modified moment minimumAge fault done disk report w) :
    Spared config modified moment minimumAge disk w := by
  intro name
  rw [h.remaining name]
  by_cases hmem : name ∈ report.removed
  · rw [if_pos hmem]
    exact Or.inr ⟨h.removed name hmem, rfl⟩
  · exact Or.inl (if_neg hmem)

/-- Nothing done, nothing reported. -/
theorem start : Cleaned config modified moment minimumAge fault [] w.disk ⟨[], [], []⟩ w where
  reported := .nil
  removed := fun _ hmem => nomatch hmem
  skipped := fun _ hmem => nomatch hmem
  excused := fun _ hmem => nomatch hmem
  remaining := fun _ => rfl

/-- What is still there is as it was. -/
theorem entry_eq (h : Cleaned config modified moment minimumAge fault done disk report w)
    {node : Node} (hentry : w.disk.entry name = some node) :
    name ∉ report.removed ∧ disk.entry name = some node := by
  have hremaining := h.remaining name
  rw [hentry] at hremaining
  by_cases hmem : name ∈ report.removed
  · rw [if_pos hmem] at hremaining
    nomatch hremaining
  · rw [if_neg hmem] at hremaining
    exact ⟨hmem, hremaining.symm⟩

/-- An entry that could not be read. -/
theorem addUnreadable (h : Cleaned config modified moment minimumAge fault done disk report w)
    (source : IoError) :
    Cleaned config modified moment minimumAge fault (done ++ [.error source]) disk
      (Windows.addFailure report directoryEntry source) w where
  reported := by
    refine List.Perm.trans ?_ ((h.reported.cons directoryEntry).trans
      (mentioned_unreadable done source).symm)
    simp only [CleanupReport.identifiers, Windows.addFailure, List.map_append, List.map_cons,
      List.map_nil, ← List.append_assoc]
    exact List.perm_append_singleton _ _
  removed := h.removed
  skipped := h.skipped
  excused other hmem heligible hnot := by
    rw [listedNames_append] at hmem
    obtain ⟨source', hfailed, hfault⟩ :=
      h.excused other ((List.mem_append.mp hmem).resolve_right fun hn => nomatch hn) heligible hnot
    exact ⟨source', List.mem_append_left _ hfailed, hfault⟩
  remaining := h.remaining

/-- A name that is no staging name. -/
theorem ignore (h : Cleaned config modified moment minimumAge fault done disk report w)
    (hforeign : ¬Owned config name) :
    Cleaned config modified moment minimumAge fault (done ++ [.ok name]) disk report w where
  reported := by
    rw [mentioned_foreign hforeign]
    exact h.reported
  removed := h.removed
  skipped := h.skipped
  excused other hmem heligible hnot := by
    rcases mem_listedNames_append.mp hmem with hmem | rfl
    · exact h.excused other hmem heligible hnot
    · exact absurd heligible.owned hforeign
  remaining := h.remaining

/-- A staging name that met an error. -/
theorem addFailure (h : Cleaned config modified moment minimumAge fault done disk report w)
    (howned : Owned config name) {source : IoError}
    (hfault : Eligible config modified moment minimumAge disk name → name ∉ report.removed →
      fault (.symlinkMetadata name) source ∨ fault (.deleteFile name) source) :
    Cleaned config modified moment minimumAge fault (done ++ [.ok name]) disk
      (Windows.addFailure report name source) w where
  reported := by
    refine List.Perm.trans ?_ ((h.reported.cons name).trans (mentioned_owned howned done).symm)
    simp only [CleanupReport.identifiers, Windows.addFailure, List.map_append, List.map_cons,
      List.map_nil, ← List.append_assoc]
    exact List.perm_append_singleton _ _
  removed := h.removed
  skipped := h.skipped
  excused other hmem heligible hnot := by
    rcases mem_listedNames_append.mp hmem with hmem | rfl
    · obtain ⟨source', hfailed, hfault⟩ := h.excused other hmem heligible hnot
      exact ⟨source', List.mem_append_left _ hfailed, hfault⟩
    · exact ⟨source, List.mem_append_right _ (List.mem_singleton.mpr rfl), hfault heligible hnot⟩
  remaining := h.remaining

/-- A staging file that is too young. -/
theorem addSkipped (h : Cleaned config modified moment minimumAge fault done disk report w)
    (howned : Owned config name) (hfile : ∃ content, disk.entry name = some (.file content))
    (hyoung : ¬OldEnough modified moment minimumAge name) :
    Cleaned config modified moment minimumAge fault (done ++ [.ok name]) disk
      { report with skipped := report.skipped ++ [name] } w where
  reported := by
    refine List.Perm.trans ?_ ((h.reported.cons name).trans (mentioned_owned howned done).symm)
    simp only [CleanupReport.identifiers, ← List.append_assoc]
    exact (List.perm_append_singleton _ _).append_right _
  removed := h.removed
  skipped other hmem := by
    rcases List.mem_append.mp hmem with hmem | hmem
    · exact h.skipped other hmem
    · obtain rfl := List.mem_singleton.mp hmem
      exact ⟨hfile, hyoung⟩
  excused other hmem heligible hnot := by
    rcases mem_listedNames_append.mp hmem with hmem | rfl
    · exact h.excused other hmem heligible hnot
    · exact absurd heligible.old hyoung
  remaining := h.remaining

/-- A staging file that was deleted. -/
theorem addRemoved (h : Cleaned config modified moment minimumAge fault done disk report w)
    (heligible : Eligible config modified moment minimumAge disk name) :
    Cleaned config modified moment minimumAge fault (done ++ [.ok name]) disk
      { report with removed := report.removed ++ [name] }
      { w with disk := w.disk.set name none } where
  reported := by
    refine List.Perm.trans ?_
      ((h.reported.cons name).trans (mentioned_owned heligible.owned done).symm)
    simp only [CleanupReport.identifiers]
    exact ((List.perm_append_singleton _ _).append_right _).append_right _
  removed other hmem := by
    rcases List.mem_append.mp hmem with hmem | hmem
    · exact h.removed other hmem
    · obtain rfl := List.mem_singleton.mp hmem
      exact heligible
  skipped := h.skipped
  excused other hmem heligible' hnot := by
    rw [List.mem_append, not_or] at hnot
    rcases mem_listedNames_append.mp hmem with hmem | rfl
    · exact h.excused other hmem heligible' hnot.1
    · exact absurd (List.mem_singleton.mpr rfl) hnot.2
  remaining other := by
    show (w.disk.set name none).entry other = _
    by_cases heq : other = name
    · subst heq
      rw [Disk.entry_set_none, if_pos (List.mem_append_right _ (List.mem_singleton.mpr rfl))]
    · rw [Disk.entry_set_ne heq, h.remaining other]
      refine if_congr ?_ rfl rfl
      rw [List.mem_append, List.mem_singleton]
      exact ⟨Or.inl, fun hmem => hmem.resolve_right heq⟩

end Cleaned

/-- The test of the age. -/
theorem oldEnough_iff {found : Option Nat} (hfound : found = modified name) :
    (found.any fun time => decide (time ≤ moment) && decide (minimumAge ≤ moment - time)) = true ↔
      OldEnough modified moment minimumAge name := by
  subst hfound
  unfold OldEnough
  cases modified name with
  | none =>
    constructor
    · intro h
      nomatch h
    · rintro ⟨_, h, -⟩
      nomatch h
  | some time =>
    rw [Option.any_some, Bool.and_eq_true, decide_eq_true_iff, decide_eq_true_iff]
    constructor
    · intro h
      exact ⟨time, rfl, h⟩
    · rintro ⟨_, h, hold⟩
      obtain rfl := Option.some.inj h
      exact hold

variable {listing : List (Except IoError FileName)}

/-- **One entry**, whichever way its calls go. -/
theorem cleaned_entry (h : Cleaned config modified moment minimumAge fault done disk report w)
    (entry : Except IoError FileName) :
    HoldsE (Dated fault modified moment listing)
      (Windows.cleanupEntry config moment minimumAge report entry)
      (fun report' w' =>
        Cleaned config modified moment minimumAge fault (done ++ [entry]) disk report' w')
      (fun _ _ => False) (Spared config modified moment minimumAge disk) w := by
  cases entry with
  | error source => exact holdsE_pure h.spared (h.addUnreadable source)
  | ok name =>
    unfold Windows.cleanupEntry
    dsimp only
    by_cases howned : Owned config name
    swap
    · rw [if_pos (by simpa [Owned] using howned)]
      exact holdsE_pure h.spared (h.ignore howned)
    rw [if_neg (by simpa [Owned] using howned)]
    refine holdsE_bind (holdsE_ask h.spared fun r w₁ hmetadata => ?_)
    obtain ⟨⟨rfl, hmetadata⟩, hobserved⟩ := hmetadata
    refine ⟨h.spared, ?_⟩
    cases r with
    | error source =>
      -- a file that is still there is not reported as gone, so the error is a fault
      refine holdsE_pure h.spared (h.addFailure howned fun heligible hnot => Or.inl ?_)
      obtain ⟨content, hfile⟩ := heligible.regular
      have hthere := h.remaining name
      rw [if_neg hnot, hfile] at hthere
      exact lookupError_fault hthere hmetadata
    | ok found =>
      cases hentry : w₁.disk.entry name with
      | none =>
        rw [hentry] at hmetadata
        exact hmetadata.elim
      | some node =>
        obtain ⟨hnot, hwas⟩ := h.entry_eq hentry
        rw [hentry] at hmetadata
        cases node with
        | other =>
          dsimp only
          have hirregular : found.isFile = false := hmetadata
          rw [if_pos (by rw [hirregular]; rfl)]
          refine holdsE_pure h.spared (h.addFailure howned fun heligible _ => ?_)
          obtain ⟨content, hfile⟩ := heligible.regular
          rw [hwas] at hfile
          nomatch hfile
        | file content =>
          obtain ⟨hregular, -⟩ : found.isFile = true ∧ found.len = content.length := hmetadata
          dsimp only
          rw [if_neg (by rw [hregular]; decide)]
          by_cases hold : OldEnough modified moment minimumAge name
          swap
          · have hyoung := hold
            rw [← oldEnough_iff hobserved, Bool.not_eq_true] at hold
            rw [if_pos (by rw [hold]; rfl)]
            exact holdsE_pure h.spared (h.addSkipped howned ⟨content, hwas⟩ hyoung)
          rw [if_neg (by rw [(oldEnough_iff hobserved).mpr hold]; decide)]
          have heligible : Eligible config modified moment minimumAge disk name :=
            ⟨howned, ⟨content, hwas⟩, hold⟩
          refine holdsE_bind (holdsE_ask h.spared fun r w₂ hdelete => ?_)
          obtain ⟨hdelete, -⟩ := hdelete
          cases r with
          | ok u =>
            obtain ⟨-, rfl⟩ := hdelete
            have hremoved := h.addRemoved heligible
            exact ⟨hremoved.spared, holdsE_pure hremoved.spared hremoved⟩
          | error source =>
            obtain ⟨rfl, hdelete⟩ := hdelete
            exact ⟨h.spared, holdsE_pure h.spared (h.addFailure howned fun _ _ =>
              Or.inr (lookupError_fault hentry hdelete))⟩

/-! ## The whole listing

  The listing was read at one moment, and what it says may be out of date by the time an entry comes
  up.  Each entry is therefore asked about once more. -/

/-- The loop, by induction on what is still to be done. -/
theorem cleaned_entries : ∀ (entries : List (Except IoError FileName))
    {done : List (Except IoError FileName)} {report : CleanupReport} {w : JobWorld},
    Cleaned config modified moment minimumAge fault done disk report w →
    HoldsE (Dated fault modified moment listing)
      (Windows.cleanupEntries config moment minimumAge entries report)
      (fun report' w' =>
        Cleaned config modified moment minimumAge fault (done ++ entries) disk report' w')
      (fun _ _ => False) (Spared config modified moment minimumAge disk) w := by
  intro entries
  induction entries with
  | nil =>
    intro done report w h
    rw [List.append_nil]
    exact holdsE_pure h.spared h
  | cons entry entries ih =>
    intro done report w h
    refine holdsE_bind ((cleaned_entry h entry).mono (fun report' w' _ h' => ?_)
      (fun _ _ _ he => he) fun _ h => h)
    have hrest := ih h'
    rwa [List.append_assoc] at hrest

end Entries

/-! ## It returns

  A program without a loop comes to its end if each of its calls is answered. -/

section Returning

variable (fault : FsCall → IoError → Prop) (modified : FileName → Option Nat) (moment : Nat)
  (listing : List (Except IoError FileName))

/-- The calls of a cleanup. -/
def Cleaning : FsCall → Prop
  | .now | .readDirectory | .symlinkMetadata _ | .deleteFile _ => True
  | _ => False

/-- Every call of a cleanup can be answered. -/
theorem dated_answers : ∀ c, Cleaning c → ∀ w : JobWorld, w.disk.isDirectory = true →
    ∃ r w', Dated fault modified moment listing c w r w' := by
  intro c hc w hdirectory
  cases c with
  | now => exact ⟨moment, w, rfl, rfl⟩
  | readDirectory => exact ⟨.ok listing, w, ⟨rfl, hdirectory⟩, rfl⟩
  | symlinkMetadata name =>
    cases hentry : w.disk.entry name with
    | none => exact ⟨.error ⟨.notFound, 0⟩, w, ⟨rfl, hentry⟩, trivial⟩
    | some node =>
      cases node with
      | file content =>
        refine ⟨.ok ⟨true, content.length, modified name⟩, w, ⟨rfl, ?_⟩, rfl⟩
        rw [hentry]
        exact ⟨rfl, rfl⟩
      | other =>
        refine ⟨.ok ⟨false, 0, modified name⟩, w, ⟨rfl, ?_⟩, rfl⟩
        rw [hentry]
  | deleteFile name =>
    cases hentry : w.disk.entry name with
    | none => exact ⟨.error ⟨.notFound, 0⟩, w, ⟨rfl, hentry⟩, trivial⟩
    | some node =>
      refine ⟨.ok (), { w with disk := w.disk.set name none }, ⟨?_, rfl⟩, trivial⟩
      rw [hentry]
      exact Option.some_ne_none node
  | _ => exact hc.elim

/-- A cleanup leaves the directory a directory. -/
theorem dated_keeps : ∀ c, Cleaning c → ∀ (w : JobWorld) (r : c.Answer) (w' : JobWorld),
    Dated fault modified moment listing c w r w' → w.disk.isDirectory = true →
    w'.disk.isDirectory = true := by
  intro c hc w r w' henv hdirectory
  obtain ⟨henv, -⟩ := henv
  cases c with
  | now =>
    obtain rfl : w' = w := henv
    exact hdirectory
  | readDirectory =>
    obtain ⟨rfl, -⟩ := henv
    exact hdirectory
  | symlinkMetadata name =>
    obtain ⟨rfl, -⟩ := henv
    exact hdirectory
  | deleteFile name =>
    cases r with
    | ok u =>
      obtain ⟨-, rfl⟩ := henv
      rw [Disk.isDirectory_set]
      exact hdirectory
    | error e =>
      obtain ⟨rfl, -⟩ := henv
      exact hdirectory
  | _ => exact hc.elim

variable (config : StoreConfig)

theorem straight_cleanupEntry (minimumAge : Nat) (report : CleanupReport)
    (entry : Except IoError FileName) :
    (Windows.cleanupEntry config moment minimumAge report entry).run.Straight Cleaning := by
  unfold Windows.cleanupEntry
  split
  · exact ProgE.straight_pure _
  · split
    · exact ProgE.straight_pure _
    · refine ProgE.straight_ask trivial fun r => ?_
      split
      · exact ProgE.straight_pure _
      · split
        · exact ProgE.straight_pure _
        · split
          · exact ProgE.straight_pure _
          · refine ProgE.straight_ask trivial fun r' => ?_
            split
            · exact ProgE.straight_pure _
            · exact ProgE.straight_pure _

theorem straight_cleanupEntries (minimumAge : Nat) : ∀ (entries : List (Except IoError FileName))
    (report : CleanupReport),
    (Windows.cleanupEntries config moment minimumAge entries report).run.Straight Cleaning := by
  intro entries
  induction entries with
  | nil => exact fun report => ProgE.straight_pure _
  | cons entry entries ih =>
    intro report
    exact ProgE.straight_bind (straight_cleanupEntry moment config minimumAge report entry) ih

theorem straight_cleanup (minimumAge : Nat) :
    (Windows.cleanupStaleFiles config minimumAge).run.Straight Cleaning := by
  refine ProgE.straight_ask trivial fun now => ProgE.straight_ask trivial fun listing => ?_
  cases listing with
  | ok entries => exact straight_cleanupEntries now config minimumAge entries _
  | error source => exact ProgE.straight_throw _

end Returning

/-! ## The result -/

/-- **Stale cleanup deletes exactly what it may and reports everything**, whatever the directory
    lists and whatever fails: wherever it is stopped, only files that may be deleted are gone; it
    never ends with an error; and from wherever it has got to, it can end with a report. -/
theorem cleanup_exact (config : StoreConfig) (fault : FsCall → IoError → Prop)
    (modified : FileName → Option Nat) (moment minimumAge : Nat)
    (listing : List (Except IoError FileName)) {w : JobWorld} (hdirectory : w.disk.isDirectory = true) :
    HoldsE (Dated fault modified moment listing) (cleanupStaleFiles config .windows minimumAge)
      (fun report w' =>
        Cleaned config modified moment minimumAge fault listing w.disk report w' ∧
          ((listedNames listing).Nodup → ∀ name ∈ listedNames listing, Owned config name →
            report.identifiers.count name = 1))
      (fun _ _ => False) (Spared config modified moment minimumAge w.disk) w ∧
    ∀ n p' w', Run (Dated fault modified moment listing) n
      (cleanupStaleFiles config .windows minimumAge).run w p' w' →
        ∃ report w'', Returns (Dated fault modified moment listing) p' w' (.ok report) w'' := by
  have hspared : Spared config modified moment minimumAge w.disk w := fun _ => Or.inl rfl
  have hcleaned : HoldsE (Dated fault modified moment listing)
      (cleanupStaleFiles config .windows minimumAge)
      (Cleaned config modified moment minimumAge fault listing w.disk)
      (fun _ _ => False) (Spared config modified moment minimumAge w.disk) w := by
    refine holdsE_bind (holdsE_ask hspared fun now w₁ hnow => ?_)
    obtain ⟨hstays, hobserved⟩ := hnow
    obtain rfl : w₁ = w := hstays
    obtain rfl : now = moment := hobserved
    refine ⟨hspared, holdsE_bind (holdsE_ask hspared fun r w₂ hread => ?_)⟩
    obtain ⟨⟨rfl, -⟩, hobserved⟩ := hread
    obtain rfl : r = .ok listing := hobserved
    exact ⟨hspared, cleaned_entries listing Cleaned.start⟩
  constructor
  · refine hcleaned.mono (fun report w' _ h => ⟨h, ?_⟩) (fun _ _ _ he => he) fun _ h => h
    intro hnodup name hmem howned
    rw [h.reported.count_eq, count_mentioned howned]
    rw [hnodup.count, if_pos hmem]
  · intro n p' w' hrun
    have hstraight : (cleanupStaleFiles config .windows minimumAge).run.Straight Cleaning :=
      straight_cleanup config minimumAge
    obtain ⟨outcome, w'', m, hrest⟩ := Run.returns (dated_answers fault modified moment listing)
      (dated_keeps fault modified moment listing) hstraight (w := w) hdirectory hrun
    cases outcome with
    | ok report => exact ⟨report, w'', m, hrest⟩
    | error abort =>
      obtain ⟨l, hall⟩ := hrun.append hrest
      exact ((hcleaned l _ _ hall).2 _ rfl).elim

/-- A staging file that nobody touched for ten units, and an entry that cannot be read: a cleanup of
    what is older than five deletes the file. -/
theorem cleanup_exact_sample : ∃ (name : FileName) (w w' : JobWorld) (report : CleanupReport),
    Returns (Dated Faultless (fun _ => some 0) 10 [.error ⟨.other 0, 5⟩, .ok name])
      (cleanupStaleFiles ⟨testFormat, 16, 1, by decide, by decide⟩ .windows 5).run w (.ok report) w' ∧
    name ∈ report.removed ∧ w'.disk.entry name = none ∧
    report.identifiers.count directoryEntry = 1 := by
  let config : StoreConfig := ⟨testFormat, 16, 1, by decide, by decide⟩
  let digits := toHex (Vector.replicate 32 (0 : UInt8)).toList
  let name := stagingFilename digits config.format.filenameSuffix .save digits
  have howned : Owned config name := (isOwnedTemporaryFilename_iff config.format name).mpr
    ⟨digits, .save, digits, isDigest_toHex _, isDigest_toHex _, rfl⟩
  let w := JobWorld.start (.directory fun _ => some (.file [7]))
  obtain ⟨hholds, hends⟩ := cleanup_exact config Faultless (fun _ => some 0) 10 5
    [.error ⟨.other 0, 5⟩, .ok name] (w := w) rfl
  obtain ⟨report, w', n, hrun⟩ := hends 0 _ _ .nil
  obtain ⟨hcleaned, -⟩ := (hholds n _ _ hrun).2 _ rfl
  have hremoved : name ∈ report.removed := by
    by_contra hnot
    obtain ⟨source, -, hfault⟩ := hcleaned.excused name (List.mem_singleton.mpr rfl)
      ⟨howned, ⟨[7], rfl⟩, 0, rfl, by decide, by decide⟩ hnot
    exact hfault.elim id id
  refine ⟨name, w, w', report, ⟨n, hrun⟩, hremoved, ?_, ?_⟩
  · rw [hcleaned.remaining name, if_pos hremoved]
  · rw [hcleaned.reported.count_eq]
    have hne : directoryEntry ∉ (listedNames [.error ⟨.other 0, 5⟩, .ok name]).filter
        (Owned config ·) := by
      intro hmem
      exact not_owned_directoryEntry (of_decide_eq_true (List.mem_filter.mp hmem).2)
    rw [mentioned, List.count_append, List.count_eq_zero.mpr hne, List.count_replicate, if_pos (by simp)]
    rfl

end AtomicBlobStore
